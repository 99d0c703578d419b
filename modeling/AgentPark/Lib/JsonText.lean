import AgentPark.Lib.Json

/-!
# JSON text

`dumps` is `json.dumps(value, ensure_ascii=False)`: the separators are `", "` and `": "`, and a
string escapes the quote, the backslash and the control characters.  `loads` is `json.loads`.
Texts are lists of characters.

* `newline_not_mem_dumps`: written text has no line break, so it can stand on a line of its own.

A character of a string is a Unicode scalar value; an escape that stands for a lone surrogate has
no value here and is an error.  A number is its literal, of any length; the reader of the program stops at
an integer of more than 4300 digits (`Lib.JsonLimits`).
-/

namespace AgentPark.Lib

open Json

/-! ### Writing -/

/-- A hexadecimal digit in lower case. -/
def hexDigit (n : Nat) : Char := Nat.digitChar n

/-- `ESCAPE_DCT` of the encoder, and `\u00xx` for the other control characters. -/
def escapeChar (c : Char) : List Char :=
  if c = '"' then ['\\', '"']
  else if c = '\\' then ['\\', '\\']
  else if c = '\n' then ['\\', 'n']
  else if c = '\r' then ['\\', 'r']
  else if c = '\t' then ['\\', 't']
  else if c = '\x0c' then ['\\', 'f']
  else if c = '\x08' then ['\\', 'b']
  else if c.toNat < 32 then
    ['\\', 'u', '0', '0', hexDigit (c.toNat / 16), hexDigit (c.toNat % 16)]
  else [c]

/-- The text of a string, without its opening quote. -/
def dumpsString (cs : List Char) : List Char := cs.flatMap escapeChar ++ ['"']

mutual

/-- `json.dumps(value, ensure_ascii=False)`. -/
def dumps : Json → List Char
  | .null => "null".toList
  | .bool true => "true".toList
  | .bool false => "false".toList
  | .num n => n.text.toList
  | .str s => '"' :: dumpsString s.toList
  | .arr items => '[' :: dumpsItems items
  | .obj fields => '{' :: dumpsFields fields

/-- The items of a list and its closing bracket. -/
def dumpsItems : List Json → List Char
  | [] => [']']
  | [v] => dumps v ++ [']']
  | v :: w :: vs => dumps v ++ ',' :: ' ' :: dumpsItems (w :: vs)

/-- The entries of a dictionary and its closing brace. -/
def dumpsFields : List (String × Json) → List Char
  | [] => ['}']
  | [(k, v)] => '"' :: (dumpsString k.toList ++ ':' :: ' ' :: (dumps v ++ ['}']))
  | (k, v) :: f :: fs =>
    '"' :: (dumpsString k.toList ++ ':' :: ' ' :: (dumps v ++ ',' :: ' ' :: dumpsFields (f :: fs)))

end

mutual

/-- `json.dumps` with a gap behind the separators: a blank by default, nothing with
`separators=(",", ":")`. -/
def dumpsWith (gap : List Char) : Json → List Char
  | .null => "null".toList
  | .bool true => "true".toList
  | .bool false => "false".toList
  | .num n => n.text.toList
  | .str s => '"' :: dumpsString s.toList
  | .arr items => '[' :: dumpsItemsWith gap items
  | .obj fields => '{' :: dumpsFieldsWith gap fields

def dumpsItemsWith (gap : List Char) : List Json → List Char
  | [] => [']']
  | [v] => dumpsWith gap v ++ [']']
  | v :: w :: vs => dumpsWith gap v ++ ',' :: (gap ++ dumpsItemsWith gap (w :: vs))

def dumpsFieldsWith (gap : List Char) : List (String × Json) → List Char
  | [] => ['}']
  | [(k, v)] => '"' :: (dumpsString k.toList ++ ':' :: (gap ++ (dumpsWith gap v ++ ['}'])))
  | (k, v) :: f :: fs =>
    '"' :: (dumpsString k.toList ++
      ':' :: (gap ++ (dumpsWith gap v ++ ',' :: (gap ++ dumpsFieldsWith gap (f :: fs)))))

end

/-- `json.dumps(value, ensure_ascii=False, separators=(",", ":"))`. -/
def dumpsCompact (v : Json) : List Char := dumpsWith [] v

mutual

theorem dumps_eq_dumpsWith : (v : Json) → dumps v = dumpsWith [' '] v
  | .null | .bool true | .bool false | .num _ | .str _ => rfl
  | .arr items => by rw [dumps, dumpsWith, dumpsItems_eq_dumpsItemsWith items]
  | .obj fields => by rw [dumps, dumpsWith, dumpsFields_eq_dumpsFieldsWith fields]

theorem dumpsItems_eq_dumpsItemsWith : (vs : List Json) → dumpsItems vs = dumpsItemsWith [' '] vs
  | [] => rfl
  | [v] => by rw [dumpsItems, dumpsItemsWith, dumps_eq_dumpsWith v]
  | v :: w :: vs => by
    rw [dumpsItems, dumpsItemsWith, dumps_eq_dumpsWith v, dumpsItems_eq_dumpsItemsWith (w :: vs)]
    rfl

theorem dumpsFields_eq_dumpsFieldsWith :
    (fs : List (String × Json)) → dumpsFields fs = dumpsFieldsWith [' '] fs
  | [] => rfl
  | [(k, v)] => by
    rw [dumpsFields, dumpsFieldsWith, dumps_eq_dumpsWith v]
    rfl
  | (k, v) :: f :: fs => by
    rw [dumpsFields, dumpsFieldsWith, dumps_eq_dumpsWith v,
      dumpsFields_eq_dumpsFieldsWith (f :: fs)]
    rfl

end

/-! ### Reading -/

/-- The whitespace of JSON. -/
def isJsonSpace (c : Char) : Bool := c == ' ' || c == '\t' || c == '\n' || c == '\r'

def skipSpace (cs : List Char) : List Char := cs.dropWhile isJsonSpace

/-- The value of a hexadecimal digit. -/
def hexValue (c : Char) : Option Nat :=
  if '0' ≤ c ∧ c ≤ '9' then some (c.toNat - 48)
  else if 'a' ≤ c ∧ c ≤ 'f' then some (c.toNat - 87)
  else if 'A' ≤ c ∧ c ≤ 'F' then some (c.toNat - 55)
  else none

/-- The four digits of a `\u` escape. -/
def scanHex : List Char → Option (Nat × List Char)
  | a :: b :: c :: d :: rest => do
    let a ← hexValue a
    let b ← hexValue b
    let c ← hexValue c
    let d ← hexValue d
    some (((a * 16 + b) * 16 + c) * 16 + d, rest)
  | _ => none

/-- The character a `\u` escape stands for; a high surrogate takes the escape after it with it. -/
def scanUnicode (cs : List Char) : Option (Char × List Char) := do
  let (high, rest) ← scanHex cs
  if 0xd800 ≤ high ∧ high ≤ 0xdbff then
    match rest with
    | '\\' :: 'u' :: rest => do
      let (low, rest) ← scanHex rest
      if 0xdc00 ≤ low ∧ low ≤ 0xdfff then
        some (Char.ofNat (0x10000 + (high - 0xd800) * 0x400 + (low - 0xdc00)), rest)
      else none
    | _ => none
  else if 0xdc00 ≤ high ∧ high ≤ 0xdfff then none
  else some (Char.ofNat high, rest)

/-- The character a one-letter escape stands for. -/
def unescapeChar (c : Char) : Option Char :=
  if c = '"' ∨ c = '\\' ∨ c = '/' then some c
  else if c = 'n' then some '\n'
  else if c = 'r' then some '\r'
  else if c = 't' then some '\t'
  else if c = 'f' then some '\x0c'
  else if c = 'b' then some '\x08'
  else none

/-- The next character of a string; control characters must be escaped. -/
def scanChar : List Char → Option (Char × List Char)
  | '\\' :: 'u' :: rest => scanUnicode rest
  | '\\' :: c :: rest => (unescapeChar c).map fun c => (c, rest)
  | c :: rest => if c.toNat < 32 ∨ c = '\\' then none else some (c, rest)
  | [] => none

/-- `scanstring`: the characters up to the closing quote. -/
def scanString : Nat → List Char → Option (List Char × List Char)
  | 0, _ => none
  | _ + 1, '"' :: rest => some ([], rest)
  | fuel + 1, cs => do
    let (c, cs) ← scanChar cs
    let (s, rest) ← scanString fuel cs
    some (c :: s, rest)

/-- A literal or a number.  The word is taken as long as it goes: what may follow a value never
starts with a character of a word. -/
def scanWord (cs : List Char) : Option (Json × List Char) :=
  let word := cs.takeWhile isWordChar
  let rest := cs.dropWhile isWordChar
  if word = "null".toList then some (.null, rest)
  else if word = "true".toList then some (.bool true, rest)
  else if word = "false".toList then some (.bool false, rest)
  else if valid : isNumber word = true then
    some (.num ⟨String.ofList word, by simpa using valid⟩, rest)
  else none

mutual

/-- `scan_once`: one value and the text behind it. -/
def scanValue : Nat → List Char → Option (Json × List Char)
  | 0, _ => none
  | fuel + 1, '"' :: cs => do
    let (s, rest) ← scanString fuel cs
    some (.str (String.ofList s), rest)
  | fuel + 1, '[' :: cs =>
    match skipSpace cs with
    | ']' :: rest => some (.arr [], rest)
    | cs => do
      let (items, rest) ← scanItems fuel cs
      some (.arr items, rest)
  | fuel + 1, '{' :: cs =>
    match skipSpace cs with
    | '}' :: rest => some (.obj [], rest)
    | cs => do
      let (pairs, rest) ← scanFields fuel cs
      some (.obj (dictOf pairs), rest)
  | _ + 1, cs => scanWord cs

/-- The items of a list, at least one. -/
def scanItems : Nat → List Char → Option (List Json × List Char)
  | 0, _ => none
  | fuel + 1, cs => do
    let (v, cs) ← scanValue fuel cs
    match skipSpace cs with
    | ']' :: rest => some ([v], rest)
    | ',' :: cs => do
      let (vs, rest) ← scanItems fuel (skipSpace cs)
      some (v :: vs, rest)
    | _ => none

/-- The entries of a dictionary, at least one. -/
def scanFields : Nat → List Char → Option (List (String × Json) × List Char)
  | 0, _ => none
  | fuel + 1, cs =>
    match cs with
    | '"' :: cs => do
      let (k, cs) ← scanString fuel cs
      match skipSpace cs with
      | ':' :: cs => do
        let (v, cs) ← scanValue fuel (skipSpace cs)
        match skipSpace cs with
        | '}' :: rest => some ([(String.ofList k, v)], rest)
        | ',' :: cs => do
          let (fs, rest) ← scanFields fuel (skipSpace cs)
          some ((String.ofList k, v) :: fs, rest)
        | _ => none
      | _ => none
    | _ => none

end

/-- `json.loads`; `none` is the error it raises. -/
def loads (cs : List Char) : Option Json :=
  match scanValue (cs.length + 1) (skipSpace cs) with
  | some (v, rest) => if (skipSpace rest).isEmpty then some v else none
  | none => none

/-! ### Strings are read back -/

theorem hexValue_hexDigit : ∀ n < 16, hexValue (hexDigit n) = some n := by decide

theorem scanChar_escapeChar (c : Char) (rest : List Char) :
    scanChar (escapeChar c ++ rest) = some (c, rest) := by
  unfold escapeChar
  split
  · subst c; rfl
  split
  · subst c; rfl
  split
  · subst c; rfl
  split
  · subst c; rfl
  split
  · subst c; rfl
  split
  · subst c; rfl
  split
  · subst c; rfl
  split
  · rename_i small
    have high := hexValue_hexDigit (c.toNat / 16) (by omega)
    have low := hexValue_hexDigit (c.toNat % 16) (by omega)
    have whole : ((0 * 16 + 0) * 16 + c.toNat / 16) * 16 + c.toNat % 16 = c.toNat := by omega
    have zero : hexValue '0' = some 0 := rfl
    have plain : ¬ (0xd800 ≤ c.toNat ∧ c.toNat ≤ 0xdbff) := by omega
    have plain' : ¬ (0xdc00 ≤ c.toNat ∧ c.toNat ≤ 0xdfff) := by omega
    simp only [List.cons_append, List.nil_append, scanChar, scanUnicode, scanHex, zero, high, low,
      Option.bind_eq_bind, Option.bind_some, whole, if_neg plain, if_neg plain', Char.ofNat_toNat]
  · rename_i notQuote notSlash _ _ _ _ _ big
    rw [List.singleton_append, scanChar.eq_def]
    split
    · rename_i same
      exact absurd (List.cons.inj same).1 notSlash
    · rename_i same
      exact absurd (List.cons.inj same).1 notSlash
    · rename_i same
      obtain ⟨rfl, rfl⟩ := List.cons.inj same
      simp [big, notSlash]
    · rename_i same
      cases same

theorem escapeChar_head (c : Char) (rest : List Char) :
    ∃ d ds, escapeChar c ++ rest = d :: ds ∧ d ≠ '"' := by
  unfold escapeChar
  split_ifs with quote
  all_goals exact ⟨_, _, rfl, by first | decide | exact quote⟩

theorem length_escapeChar_pos (c : Char) : 0 < (escapeChar c).length := by
  obtain ⟨d, ds, eq, -⟩ := escapeChar_head c []
  rw [List.append_nil] at eq
  simp [eq]

variable {fuel : Nat}

theorem scanString_cons {d : Char} {ds : List Char} (notQuote : d ≠ '"') :
    scanString (fuel + 1) (d :: ds) = (do
      let (c, cs) ← scanChar (d :: ds)
      let (s, rest) ← scanString fuel cs
      some (c :: s, rest)) := by
  rw [scanString]
  rintro rest ⟨rfl, -⟩
  exact notQuote rfl

variable {cs rest : List Char}

theorem scanString_dumpsString (rest : List Char) (enough : (dumpsString cs).length ≤ fuel) :
    scanString fuel (dumpsString cs ++ rest) = some (cs, rest) := by
  induction cs generalizing fuel with
  | nil =>
    obtain _ | fuel := fuel
    · simp [dumpsString] at enough
    · rfl
  | cons c cs ih =>
    have split : dumpsString (c :: cs) = escapeChar c ++ dumpsString cs := by
      simp [dumpsString]
    have pos := length_escapeChar_pos c
    rw [split, List.length_append] at enough
    obtain _ | fuel := fuel
    · omega
    obtain ⟨d, ds, eq, notQuote⟩ := escapeChar_head c (dumpsString cs ++ rest)
    rw [split, List.append_assoc, eq, scanString_cons notQuote, ← eq, scanChar_escapeChar]
    have later := @ih fuel (by omega)
    simp only [Option.bind_eq_bind, Option.bind_some, later]

/-! ### Values are read back -/

/-- The text behind a value does not go on with a word. -/
def Boundary (rest : List Char) : Prop := ∀ c cs, rest = c :: cs → isWordChar c = false

variable {c : Char}

theorem boundary_cons (stop : isWordChar c = false) :
    Boundary (c :: cs) := by
  rintro d ds ⟨rfl, rfl⟩
  exact stop

theorem boundary_nil : Boundary [] := nofun

theorem takeWhile_word {w : List Char} (word : ∀ c ∈ w, isWordChar c = true)
    (boundary : Boundary rest) :
    (w ++ rest).takeWhile isWordChar = w ∧ (w ++ rest).dropWhile isWordChar = rest := by
  have stop : rest.takeWhile isWordChar = [] ∧ rest.dropWhile isWordChar = rest := by
    cases rest with
    | nil => exact ⟨rfl, rfl⟩
    | cons c cs =>
      have := boundary c cs rfl
      simp [this]
  rw [List.takeWhile_append_of_pos word, List.dropWhile_append_of_pos word, stop.1, stop.2,
    List.append_nil]
  exact ⟨rfl, rfl⟩

theorem Number.word (n : Number) : ∀ c ∈ n.text.toList, isWordChar c = true := by
  have valid := n.valid
  unfold isNumber at valid
  rw [Bool.and_eq_true] at valid
  exact List.all_eq_true.mp valid.1

theorem scanValue_of_word (word : isWordChar c = true) :
    scanValue (fuel + 1) (c :: cs) = scanWord (c :: cs) := by
  rw [scanValue]
  all_goals
    rintro rest ⟨rfl, -⟩
    revert word
    decide

theorem scanWord_append {w : List Char} (word : ∀ c ∈ w, isWordChar c = true)
    (boundary : Boundary rest) :
    scanWord (w ++ rest) =
      if w = "null".toList then some (.null, rest)
      else if w = "true".toList then some (.bool true, rest)
      else if w = "false".toList then some (.bool false, rest)
      else if valid : isNumber w = true then
        some (.num ⟨String.ofList w, by simpa using valid⟩, rest)
      else none := by
  obtain ⟨taken, left⟩ := takeWhile_word word boundary
  simp only [scanWord, taken, left]

theorem Number.not_literal (n : Number) :
    n.text.toList ≠ "null".toList ∧ n.text.toList ≠ "true".toList ∧
      n.text.toList ≠ "false".toList := by
  have valid := n.valid
  refine ⟨?_, ?_, ?_⟩
  all_goals
    intro same
    rw [same] at valid
    revert valid
    decide

theorem scanWord_number (n : Number) (boundary : Boundary rest) :
    scanWord (n.text.toList ++ rest) = some (.num n, rest) := by
  obtain ⟨notNull, notTrue, notFalse⟩ := n.not_literal
  rw [scanWord_append n.word boundary, if_neg notNull, if_neg notTrue, if_neg notFalse,
    dif_pos n.valid]
  simp

theorem skipSpace_cons (solid : isJsonSpace c = false) :
    skipSpace (c :: cs) = c :: cs := by
  simp [skipSpace, solid]

@[simp] theorem skipSpace_space (cs : List Char) : skipSpace (' ' :: cs) = skipSpace cs := rfl

theorem isJsonSpace_of_word (word : isWordChar c = true) : isJsonSpace c = false := by
  by_contra space
  rw [Bool.not_eq_false, isJsonSpace] at space
  simp only [Bool.or_eq_true, beq_iff_eq] at space
  rcases space with ((rfl | rfl) | rfl) | rfl
  all_goals
    revert word
    decide

/-- How the text of a value starts. -/
def ValueStart (c : Char) : Prop := isJsonSpace c = false ∧ c ≠ ']' ∧ c ≠ '}'

theorem valueStart_of_word (word : isWordChar c = true) : ValueStart c := by
  refine ⟨isJsonSpace_of_word word, ?_, ?_⟩
  all_goals
    rintro rfl
    revert word
    decide

section Written

variable (gap : List Char)

theorem skipSpace_gap {gap : List Char} (spaces : ∀ c ∈ gap, isJsonSpace c = true) (cs : List Char) :
    skipSpace (gap ++ cs) = skipSpace cs :=
  List.dropWhile_append_of_pos spaces

theorem dumps_head (v : Json) : ∃ c cs, dumpsWith gap v = c :: cs ∧ ValueStart c := by
  cases v with
  | num n =>
    obtain ⟨c, cs, eq⟩ := List.exists_cons_of_ne_nil n.text_ne_nil
    exact ⟨c, cs, eq, valueStart_of_word (n.word c (eq ▸ List.mem_cons_self))⟩
  | bool b => cases b <;> exact ⟨_, _, rfl, by unfold ValueStart; decide⟩
  | _ => exact ⟨_, _, rfl, by unfold ValueStart; decide⟩

theorem dumpsItems_head (v : Json) (vs : List Json) (rest : List Char) :
    ∃ c cs, dumpsItemsWith gap (v :: vs) ++ rest = c :: cs ∧ ValueStart c := by
  obtain ⟨c, cs, eq, start⟩ := dumps_head gap v
  cases vs <;> exact ⟨c, _, by rw [dumpsItemsWith, eq]; rfl, start⟩

theorem dumpsFields_head (f : String × Json) (fs : List (String × Json)) (rest : List Char) :
    ∃ cs, dumpsFieldsWith gap (f :: fs) ++ rest = '"' :: cs := by
  cases fs <;> exact ⟨_, rfl⟩

variable {gap}

variable {fuel : Nat} {cs rest : List Char} {v : Json}

theorem scanItems_of_value (first : scanValue fuel cs = some (v, ']' :: rest)) :
    scanItems (fuel + 1) cs = some ([v], rest) := by
  rw [scanItems, first]
  rfl

theorem scanItems_of_comma {rest' : List Char} {vs : List Json}
    (spaces : ∀ c ∈ gap, isJsonSpace c = true)
    (first : scanValue fuel cs = some (v, ',' :: (gap ++ rest)))
    (later : scanItems fuel (skipSpace rest) = some (vs, rest')) :
    scanItems (fuel + 1) cs = some (v :: vs, rest') := by
  rw [scanItems, first]
  simp only [Option.bind_eq_bind, Option.bind_some, skipSpace_cons (show isJsonSpace ',' = false
    from rfl), skipSpace_gap spaces, later]

theorem scanFields_of_value {cs' : List Char} {k : List Char}
    (spaces : ∀ c ∈ gap, isJsonSpace c = true)
    (key : scanString fuel cs = some (k, ':' :: (gap ++ cs')))
    (first : scanValue fuel (skipSpace cs') = some (v, '}' :: rest)) :
    scanFields (fuel + 1) ('"' :: cs) = some ([(String.ofList k, v)], rest) := by
  rw [scanFields, key]
  simp only [Option.bind_eq_bind, Option.bind_some, skipSpace_cons (show isJsonSpace ':' = false
    from rfl), skipSpace_gap spaces, first]
  rfl

theorem scanFields_of_comma {cs' rest' : List Char} {k : List Char} {fs : List (String × Json)}
    (spaces : ∀ c ∈ gap, isJsonSpace c = true)
    (key : scanString fuel cs = some (k, ':' :: (gap ++ cs')))
    (first : scanValue fuel (skipSpace cs') = some (v, ',' :: (gap ++ rest)))
    (later : scanFields fuel (skipSpace rest) = some (fs, rest')) :
    scanFields (fuel + 1) ('"' :: cs) = some ((String.ofList k, v) :: fs, rest') := by
  rw [scanFields, key]
  simp only [Option.bind_eq_bind, Option.bind_some, skipSpace_cons (show isJsonSpace ':' = false
    from rfl), skipSpace_cons (show isJsonSpace ',' = false from rfl), skipSpace_gap spaces, first,
    later]

theorem scanValue_literal {w : List Char} (word : ∀ c ∈ w, isWordChar c = true) (notEmpty : w ≠ [])
    (value : scanWord (w ++ rest) = some (v, rest)) :
    scanValue (fuel + 1) (w ++ rest) = some (v, rest) := by
  obtain ⟨c, cs, rfl⟩ := List.exists_cons_of_ne_nil notEmpty
  rw [List.cons_append] at value ⊢
  rw [scanValue_of_word (word c List.mem_cons_self), value]

theorem scanValue_arr {c : Char} {vs : List Json} (start : ValueStart c)
    (scanned : scanItems fuel (c :: cs) = some (vs, rest)) :
    scanValue (fuel + 1) ('[' :: c :: cs) = some (.arr vs, rest) := by
  obtain ⟨solid, notClose, -⟩ := start
  rw [scanValue, skipSpace_cons solid]
  split
  · rename_i same
    exact absurd (List.cons.inj same).1 notClose
  · rw [scanned]
    rfl

theorem scanValue_obj {fs : List (String × Json)}
    (scanned : scanFields fuel ('"' :: cs) = some (fs, rest)) :
    scanValue (fuel + 1) ('{' :: '"' :: cs) = some (.obj (dictOf fs), rest) := by
  rw [scanValue, skipSpace_cons rfl]
  split
  · rename_i same
    exact absurd (List.cons.inj same).1 (by decide)
  · rw [scanned]
    rfl

/-- The text of a value, of items and of entries is read back, by induction on the fuel: every
call below a value reads a shorter text. -/
theorem scan_dumps (spaces : ∀ c ∈ gap, isJsonSpace c = true) (fuel : Nat) :
    (∀ v rest, v.UniqueKeys → (dumpsWith gap v).length ≤ fuel → Boundary rest →
      scanValue fuel (dumpsWith gap v ++ rest) = some (v, rest)) ∧
    (∀ v vs rest, UniqueKeysItems (v :: vs) → (dumpsItemsWith gap (v :: vs)).length ≤ fuel →
      scanItems fuel (dumpsItemsWith gap (v :: vs) ++ rest) = some (v :: vs, rest)) ∧
    (∀ f fs rest, UniqueKeysFields (f :: fs) → (dumpsFieldsWith gap (f :: fs)).length ≤ fuel →
      scanFields fuel (dumpsFieldsWith gap (f :: fs) ++ rest) = some (f :: fs, rest)) := by
  induction fuel with
  | zero =>
    refine ⟨fun v rest _ enough _ => ?_, fun v vs rest _ enough => ?_,
      fun f fs rest _ enough => ?_⟩
    · obtain ⟨c, cs, eq, -⟩ := dumps_head gap v
      simp [eq] at enough
    · obtain ⟨c, cs, eq, -⟩ := dumpsItems_head gap v vs []
      rw [List.append_nil] at eq
      simp [eq] at enough
    · obtain ⟨cs, eq⟩ := dumpsFields_head gap f fs []
      rw [List.append_nil] at eq
      simp [eq] at enough
  | succ fuel ih =>
    obtain ⟨value, items, fields⟩ := ih
    refine ⟨fun v rest unique enough boundary => ?_, fun v vs rest unique enough => ?_,
      fun f fs rest unique enough => ?_⟩
    · cases v with
      | null =>
        have word : ∀ c ∈ "null".toList, isWordChar c = true := List.all_eq_true.mp (by decide)
        exact scanValue_literal word (List.cons_ne_nil _ _) (scanWord_append word boundary)
      | bool b =>
        cases b with
        | true =>
          have word : ∀ c ∈ "true".toList, isWordChar c = true := List.all_eq_true.mp (by decide)
          exact scanValue_literal word (List.cons_ne_nil _ _) (scanWord_append word boundary)
        | false =>
          have word : ∀ c ∈ "false".toList, isWordChar c = true := List.all_eq_true.mp (by decide)
          exact scanValue_literal word (List.cons_ne_nil _ _) (scanWord_append word boundary)
      | num n => exact scanValue_literal n.word n.text_ne_nil (scanWord_number n boundary)
      | str s =>
        rw [dumpsWith, List.length_cons] at enough
        have text := scanString_dumpsString rest (show (dumpsString s.toList).length ≤ fuel by
          omega)
        rw [dumpsWith, List.cons_append, scanValue, text]
        simp
      | arr xs =>
        rw [dumpsWith, List.length_cons] at enough
        cases xs with
        | nil => rfl
        | cons x xs =>
          obtain ⟨c, cs, eq, start⟩ := dumpsItems_head gap x xs rest
          have scanned := items x xs rest unique (by omega)
          rw [dumpsWith, List.cons_append, eq]
          rw [eq] at scanned
          exact scanValue_arr start scanned
      | obj fs =>
        rw [dumpsWith, List.length_cons] at enough
        cases fs with
        | nil => rfl
        | cons f fs =>
          obtain ⟨cs, eq⟩ := dumpsFields_head gap f fs rest
          have scanned := fields f fs rest unique.2 (by omega)
          rw [dumpsWith, List.cons_append, eq]
          rw [eq] at scanned
          rw [scanValue_obj scanned, dictOf_of_nodup unique.1]
    · obtain ⟨uniqueHead, uniqueTail⟩ := unique
      cases vs with
      | nil =>
        rw [dumpsItemsWith, List.length_append, List.length_singleton] at enough
        rw [dumpsItemsWith, List.append_assoc]
        exact scanItems_of_value (value v _ uniqueHead (by omega) (boundary_cons rfl))
      | cons w ws =>
        rw [dumpsItemsWith] at enough
        simp only [List.length_append, List.length_cons] at enough
        obtain ⟨c, cs, eq, solid, -, -⟩ := dumpsItems_head gap w ws rest
        have later := items w ws rest uniqueTail (by omega)
        have skipped : skipSpace (dumpsItemsWith gap (w :: ws) ++ rest) = dumpsItemsWith gap (w :: ws) ++ rest := by
          rw [eq, skipSpace_cons solid]
        rw [← skipped] at later
        rw [dumpsItemsWith, List.append_assoc, List.cons_append, List.append_assoc]
        exact scanItems_of_comma spaces (value v _ uniqueHead (by omega) (boundary_cons rfl)) later
    · obtain ⟨k, v⟩ := f
      obtain ⟨uniqueHead, uniqueTail⟩ := unique
      obtain ⟨c, cs, start, solid, -, -⟩ := dumps_head gap v
      have skip (rest : List Char) : skipSpace (dumpsWith gap v ++ rest) = dumpsWith gap v ++ rest := by
        rw [start, List.cons_append, skipSpace_cons solid]
      cases fs with
      | nil =>
        rw [dumpsFieldsWith] at enough
        simp only [List.length_append, List.length_cons, List.length_nil] at enough
        have key := @scanString_dumpsString fuel k.toList
          (':' :: (gap ++ (dumpsWith gap v ++ '}' :: rest))) (by omega)
        have first := value v ('}' :: rest) uniqueHead (by omega) (boundary_cons rfl)
        rw [← skip] at first
        have scanned := scanFields_of_value spaces key first
        rw [dumpsFieldsWith]
        simpa using scanned
      | cons g gs =>
        rw [dumpsFieldsWith] at enough
        simp only [List.length_append, List.length_cons] at enough
        obtain ⟨ds, eq⟩ := dumpsFields_head gap g gs rest
        have later := fields g gs rest uniqueTail (by omega)
        have key := @scanString_dumpsString fuel k.toList
          (':' :: (gap ++ (dumpsWith gap v ++ ',' :: (gap ++ (dumpsFieldsWith gap (g :: gs) ++ rest))))) (by omega)
        have first := value v (',' :: (gap ++ (dumpsFieldsWith gap (g :: gs) ++ rest))) uniqueHead
          (by omega) (boundary_cons rfl)
        rw [← skip] at first
        have skipped : skipSpace (dumpsFieldsWith gap (g :: gs) ++ rest) =
            dumpsFieldsWith gap (g :: gs) ++ rest := by rw [eq, skipSpace_cons rfl]
        rw [← skipped] at later
        have scanned := scanFields_of_comma spaces key first later
        rw [dumpsFieldsWith]
        simpa using scanned

theorem loads_dumpsWith (spaces : ∀ c ∈ gap, isJsonSpace c = true) (unique : v.UniqueKeys) :
    loads (dumpsWith gap v) = some v := by
  obtain ⟨c, cs, eq, solid, -, -⟩ := dumps_head gap v
  have scanned :=
    (scan_dumps spaces ((dumpsWith gap v).length + 1)).1 v [] unique (by omega) boundary_nil
  rw [List.append_nil] at scanned
  rw [loads, show skipSpace (dumpsWith gap v) = dumpsWith gap v by rw [eq, skipSpace_cons solid],
    scanned]
  rfl

end Written

variable {v : Json}

/-- What was written is read back. -/
theorem loads_dumps (unique : v.UniqueKeys) : loads (dumps v) = some v := by
  rw [dumps_eq_dumpsWith]
  exact loads_dumpsWith (List.all_eq_true.mp rfl) unique

/-- So is what was written with the short separators. -/
theorem loads_dumpsCompact (unique : v.UniqueKeys) : loads (dumpsCompact v) = some v :=
  loads_dumpsWith (List.forall_mem_nil _) unique

theorem dumpsFieldsWith_last (gap : List Char) :
    (fs : List (String × Json)) → ∃ cs, dumpsFieldsWith gap fs = cs ++ ['}']
  | [] => ⟨[], rfl⟩
  | [(k, v)] => ⟨'"' :: (dumpsString k.toList ++ ':' :: (gap ++ dumpsWith gap v)), by
      simp [dumpsFieldsWith]⟩
  | (k, v) :: f :: fs => by
    obtain ⟨cs, eq⟩ := dumpsFieldsWith_last gap (f :: fs)
    exact ⟨'"' :: (dumpsString k.toList ++ ':' :: (gap ++ (dumpsWith gap v ++ ',' :: (gap ++ cs)))), by
      rw [dumpsFieldsWith, eq]
      simp⟩

theorem dumpsFields_last (fs : List (String × Json)) : ∃ cs, dumpsFields fs = cs ++ ['}'] := by
  rw [dumpsFields_eq_dumpsFieldsWith]
  exact dumpsFieldsWith_last [' '] fs

/-! ### A dictionary that is read has distinct keys -/

variable {cs : List Char}

theorem uniqueKeys_scanWord {rest : List Char} (scanned : scanWord cs = some (v, rest)) :
    v.UniqueKeys := by
  unfold scanWord at scanned
  simp only at scanned
  split_ifs at scanned
  all_goals
    cases scanned
    trivial

/-- The values a fuelled reader returns have distinct keys, by induction on the fuel. -/
theorem uniqueKeys_scan (fuel : Nat) :
    (∀ cs v rest, scanValue fuel cs = some (v, rest) → v.UniqueKeys) ∧
    (∀ cs vs rest, scanItems fuel cs = some (vs, rest) → ∀ v ∈ vs, v.UniqueKeys) ∧
    (∀ cs fs rest, scanFields fuel cs = some (fs, rest) → ∀ f ∈ fs, f.2.UniqueKeys) := by
  induction fuel with
  | zero => exact ⟨nofun, nofun, nofun⟩
  | succ fuel ih =>
    obtain ⟨value, items, fields⟩ := ih
    refine ⟨fun cs v rest scanned => ?_, fun cs vs rest scanned => ?_,
      fun cs fs rest scanned => ?_⟩
    · unfold scanValue at scanned
      split at scanned
      · cases ‹Nat.succ fuel = 0›
      · obtain ⟨⟨s, rest'⟩, -, same⟩ := Option.bind_eq_some_iff.mp scanned
        cases same
        trivial
      · split at scanned
        · cases scanned
          exact Json.uniqueKeys_arr.mpr (by simp)
        · obtain ⟨⟨vs, rest'⟩, read, same⟩ := Option.bind_eq_some_iff.mp scanned
          cases same
          cases ‹Nat.succ fuel = Nat.succ _›
          exact Json.uniqueKeys_arr.mpr (items _ _ _ read)
      · split at scanned
        · cases scanned
          exact Json.uniqueKeys_obj.mpr ⟨by simp, by simp⟩
        · obtain ⟨⟨fs, rest'⟩, read, same⟩ := Option.bind_eq_some_iff.mp scanned
          cases same
          cases ‹Nat.succ fuel = Nat.succ _›
          exact Json.uniqueKeys_dictOf (fields _ _ _ read)
      · exact uniqueKeys_scanWord scanned
    · obtain ⟨⟨v, cs'⟩, read, scanned⟩ := Option.bind_eq_some_iff.mp scanned
      have first := value _ _ _ read
      dsimp only at scanned
      split at scanned
      · cases scanned
        simpa using first
      · obtain ⟨⟨vs', rest'⟩, readItems, same⟩ := Option.bind_eq_some_iff.mp scanned
        cases same
        exact List.forall_mem_cons.mpr ⟨first, items _ _ _ readItems⟩
      · cases scanned
    · unfold scanFields at scanned
      split at scanned
      · obtain ⟨⟨k, cs'⟩, -, scanned⟩ := Option.bind_eq_some_iff.mp scanned
        dsimp only at scanned
        split at scanned
        · obtain ⟨⟨v, cs''⟩, read, scanned⟩ := Option.bind_eq_some_iff.mp scanned
          have first := value _ _ _ read
          dsimp only at scanned
          split at scanned
          · cases scanned
            simpa using first
          · obtain ⟨⟨fs', rest'⟩, readFields, same⟩ := Option.bind_eq_some_iff.mp scanned
            cases same
            exact List.forall_mem_cons.mpr ⟨first, fields _ _ _ readFields⟩
          · cases scanned
        · cases scanned
      · cases scanned

theorem uniqueKeys_loads (loaded : loads cs = some v) :
    v.UniqueKeys := by
  unfold loads at loaded
  split at loaded
  · rename_i scanned
    split_ifs at loaded
    cases loaded
    exact (uniqueKeys_scan _).1 _ _ _ scanned
  · cases loaded

/-! ### Written text has no line break -/

/-- A line break, for a reader that takes both characters as one. -/
def isLineBreak (c : Char) : Bool := c == '\n' || c == '\r'

theorem noLineBreak_of_all (all : (cs.all fun c => !isLineBreak c) = true) :
    ∀ d ∈ cs, isLineBreak d = false := by
  intro d mem
  simpa using List.all_eq_true.mp all d mem

theorem lineBreak_not_mem_escapeChar {c d : Char} (mem : d ∈ escapeChar c) :
    isLineBreak d = false := by
  unfold escapeChar at mem
  split at mem
  · exact noLineBreak_of_all (by decide) d mem
  split at mem
  · exact noLineBreak_of_all (by decide) d mem
  split at mem
  · exact noLineBreak_of_all (by decide) d mem
  split at mem
  · exact noLineBreak_of_all (by decide) d mem
  split at mem
  · exact noLineBreak_of_all (by decide) d mem
  split at mem
  · exact noLineBreak_of_all (by decide) d mem
  split at mem
  · exact noLineBreak_of_all (by decide) d mem
  split at mem
  · rename_i small
    have digit : ∀ n < 16, isLineBreak (hexDigit n) = false := by decide
    have high := digit (c.toNat / 16) (by omega)
    have low := digit (c.toNat % 16) (by omega)
    simp only [List.mem_cons, List.not_mem_nil, or_false] at mem
    rcases mem with rfl | rfl | rfl | rfl | rfl | rfl
    all_goals first | rfl | exact high | exact low
  · rename_i notQuote notSlash notNewline notReturn _ _ _ big
    rw [List.mem_singleton.mp mem]
    simp [isLineBreak, notNewline, notReturn]

theorem lineBreak_not_mem_dumpsString :
    ∀ d ∈ dumpsString cs, isLineBreak d = false := by
  intro d mem
  rw [dumpsString, List.mem_append, List.mem_flatMap] at mem
  rcases mem with ⟨c, -, mem⟩ | mem
  · exact lineBreak_not_mem_escapeChar mem
  · rw [List.mem_singleton.mp mem]
    rfl

theorem isLineBreak_of_word {c : Char} (word : isWordChar c = true) : isLineBreak c = false := by
  have solid := isJsonSpace_of_word word
  simp only [isJsonSpace, Bool.or_eq_false_iff] at solid
  simp [isLineBreak, solid.1.2, solid.2]

section OneLine

variable {gap : List Char}

mutual

theorem lineBreak_not_mem_dumpsWith (flat : ∀ c ∈ gap, isLineBreak c = false) :
    (v : Json) → ∀ d ∈ dumpsWith gap v, isLineBreak d = false
  | .null | .bool true | .bool false => noLineBreak_of_all (by rfl)
  | .num n => fun d mem => isLineBreak_of_word (n.word d mem)
  | .str s => by
    rw [dumpsWith, List.forall_mem_cons]
    exact ⟨rfl, lineBreak_not_mem_dumpsString⟩
  | .arr items => by
    rw [dumpsWith, List.forall_mem_cons]
    exact ⟨rfl, lineBreak_not_mem_dumpsItemsWith flat items⟩
  | .obj fields => by
    rw [dumpsWith, List.forall_mem_cons]
    exact ⟨rfl, lineBreak_not_mem_dumpsFieldsWith flat fields⟩

theorem lineBreak_not_mem_dumpsItemsWith (flat : ∀ c ∈ gap, isLineBreak c = false) :
    (vs : List Json) → ∀ d ∈ dumpsItemsWith gap vs, isLineBreak d = false
  | [] => noLineBreak_of_all (by rfl)
  | [v] => by
    rw [dumpsItemsWith, List.forall_mem_append]
    exact ⟨lineBreak_not_mem_dumpsWith flat v, noLineBreak_of_all (by decide)⟩
  | v :: w :: vs => by
    rw [dumpsItemsWith, List.forall_mem_append, List.forall_mem_cons, List.forall_mem_append]
    exact ⟨lineBreak_not_mem_dumpsWith flat v, rfl, flat,
      lineBreak_not_mem_dumpsItemsWith flat (w :: vs)⟩

theorem lineBreak_not_mem_dumpsFieldsWith (flat : ∀ c ∈ gap, isLineBreak c = false) :
    (fs : List (String × Json)) → ∀ d ∈ dumpsFieldsWith gap fs, isLineBreak d = false
  | [] => noLineBreak_of_all (by rfl)
  | [(k, v)] => by
    rw [dumpsFieldsWith, List.forall_mem_cons, List.forall_mem_append, List.forall_mem_cons,
      List.forall_mem_append, List.forall_mem_append]
    exact ⟨rfl, lineBreak_not_mem_dumpsString, rfl, flat, lineBreak_not_mem_dumpsWith flat v,
      noLineBreak_of_all (by decide)⟩
  | (k, v) :: f :: fs => by
    rw [dumpsFieldsWith, List.forall_mem_cons, List.forall_mem_append, List.forall_mem_cons,
      List.forall_mem_append, List.forall_mem_append, List.forall_mem_cons,
      List.forall_mem_append]
    exact ⟨rfl, lineBreak_not_mem_dumpsString, rfl, flat, lineBreak_not_mem_dumpsWith flat v, rfl,
      flat, lineBreak_not_mem_dumpsFieldsWith flat (f :: fs)⟩

end

end OneLine

theorem lineBreak_not_mem_dumps (v : Json) : ∀ d ∈ dumps v, isLineBreak d = false := by
  rw [dumps_eq_dumpsWith]
  exact lineBreak_not_mem_dumpsWith (noLineBreak_of_all (by decide)) v

theorem lineBreak_not_mem_dumpsCompact (v : Json) : ∀ d ∈ dumpsCompact v, isLineBreak d = false :=
  lineBreak_not_mem_dumpsWith (List.forall_mem_nil _) v

theorem dumpsCompact_obj (fs : List (String × Json)) :
    ∃ cs, dumpsCompact (.obj fs) = '{' :: (cs ++ ['}']) := by
  obtain ⟨cs, eq⟩ := dumpsFieldsWith_last [] fs
  exact ⟨cs, by rw [dumpsCompact, dumpsWith, eq]⟩

end AgentPark.Lib
