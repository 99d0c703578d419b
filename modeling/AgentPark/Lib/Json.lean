import AgentPark.Lib.Dict
import AgentPark.Lib.PyText
import Mathlib.Data.List.TakeWhile

/-!
# JSON values

The values `json.loads` returns and `json.dumps` takes, with the operations of the source language
on them.

* `Json` is the type of values.  A number is kept as the text it is written with; a dictionary is
  the list of its entries in insertion order.
* `Json.get` is `dict.get`, `Json.truthy` is the truth value of `x or y`, `Json.pyStr` is `str`.
* `Json.UniqueKeys` says that no dictionary inside the value has a key twice, which every
  dictionary of the source language satisfies; `dictOf` builds such a dictionary from pairs.
* `Json.pyEq` is `==`, which looks at dictionaries without their order; it is reflexive on values whose
  dictionaries have distinct keys.
-/

namespace AgentPark.Lib

/-- The characters of the words of JSON: literals and numbers. -/
def isWordChar (c : Char) : Bool := c.isAlpha || c.isDigit || c == '-' || c == '+' || c == '.'

/-- `(\.\d+)?([eE][-+]?\d+)?` at the end of a number. -/
def isNumberTail (cs : List Char) : Bool :=
  let exponent (cs : List Char) : Bool :=
    match cs with
    | [] => true
    | e :: sign :: ds =>
      (e == 'e' || e == 'E') &&
        (if sign == '-' || sign == '+' then !ds.isEmpty && ds.all Char.isDigit
          else (sign :: ds).all Char.isDigit)
    | _ => false
  match cs with
  | '.' :: d :: ds => d.isDigit && exponent (ds.dropWhile Char.isDigit)
  | cs => exponent cs

/-- `-?(0|[1-9]\d*)(\.\d+)?([eE][-+]?\d+)?`, or one of the words for the special floats. -/
def isNumber (cs : List Char) : Bool :=
  let unsigned (cs : List Char) : Bool :=
    match cs with
    | '0' :: rest => isNumberTail rest
    | d :: rest => d.isDigit && isNumberTail (rest.dropWhile Char.isDigit)
    | [] => false
  cs.all isWordChar &&
    (cs == "NaN".toList || cs == "Infinity".toList || cs == "-Infinity".toList ||
      match cs with
      | '-' :: rest => unsigned rest
      | cs => unsigned cs)

/-- A number, as the text it is written with. -/
structure Number where
  text : String
  valid : isNumber text.toList = true
deriving DecidableEq

theorem Number.text_ne_nil (n : Number) : n.text.toList ≠ [] := by
  intro empty
  have valid := n.valid
  rw [empty] at valid
  revert valid
  decide

inductive Json where
  | null
  | bool (b : Bool)
  | num (n : Number)
  | str (s : String)
  | arr (items : List Json)
  | obj (fields : List (String × Json))

namespace Json

mutual

/-- Equality of values is decided along their structure. -/
def decEq : (a b : Json) → Decidable (a = b)
  | .null, b => match b with
    | .null => isTrue rfl
    | .bool _ | .num _ | .str _ | .arr _ | .obj _ => isFalse nofun
  | .bool x, b => match b with
    | .bool y => decidable_of_iff (x = y) (by simp)
    | .null | .num _ | .str _ | .arr _ | .obj _ => isFalse nofun
  | .num x, b => match b with
    | .num y => decidable_of_iff (x = y) (by simp)
    | .null | .bool _ | .str _ | .arr _ | .obj _ => isFalse nofun
  | .str x, b => match b with
    | .str y => decidable_of_iff (x = y) (by simp)
    | .null | .bool _ | .num _ | .arr _ | .obj _ => isFalse nofun
  | .arr xs, b => match b with
    | .arr ys => @decidable_of_iff _ (xs = ys) (by simp) (decEqItems xs ys)
    | .null | .bool _ | .num _ | .str _ | .obj _ => isFalse nofun
  | .obj xs, b => match b with
    | .obj ys => @decidable_of_iff _ (xs = ys) (by simp) (decEqFields xs ys)
    | .null | .bool _ | .num _ | .str _ | .arr _ => isFalse nofun

def decEqItems : (xs ys : List Json) → Decidable (xs = ys)
  | [], [] => isTrue rfl
  | [], _ :: _ | _ :: _, [] => isFalse nofun
  | x :: xs, y :: ys =>
    @decidable_of_iff _ (x = y ∧ xs = ys) (by simp)
      (@instDecidableAnd _ _ (decEq x y) (decEqItems xs ys))

def decEqFields : (xs ys : List (String × Json)) → Decidable (xs = ys)
  | [], [] => isTrue rfl
  | [], _ :: _ | _ :: _, [] => isFalse nofun
  | (k, x) :: xs, (l, y) :: ys =>
    @decidable_of_iff _ (k = l ∧ x = y ∧ xs = ys) (by simp [and_assoc])
      (@instDecidableAnd _ _ (inferInstanceAs (Decidable (k = l)))
        (@instDecidableAnd _ _ (decEq x y) (decEqFields xs ys)))

end

instance : DecidableEq Json := decEq

/-- `value.get(key)` on a dictionary; `none` when the key is absent or the value is no
dictionary. -/
def get (key : String) : Json → Option Json
  | .obj fields => fields.lookup key
  | _ => none

/-- A digit run and point that stand for zero: the program's `x or y` treats `0` and `0.0` alike. -/
def isZero (n : Number) : Bool :=
  (n.text.toList.takeWhile fun c => c != 'e' && c != 'E').all fun c =>
    c == '0' || c == '.' || c == '-'

/-- The truth value of a value. -/
def truthy : Json → Bool
  | .null => false
  | .bool b => b
  | .num n => !isZero n
  | .str s => s ≠ ""
  | .arr items => !items.isEmpty
  | .obj fields => !fields.isEmpty

/-- `str(value)`.  `repr` stands for the text of a list or a dictionary. -/
def pyStr (repr : Json → String) : Json → String
  | .null => "None"
  | .bool b => if b then "True" else "False"
  | .num n => n.text
  | .str s => s
  | v => repr v

/-- `str(value or "")` for an optional value. -/
def strOr (repr : Json → String) (default : String) : Option Json → String
  | some v => if v.truthy then v.pyStr repr else default
  | none => default

mutual

/-- No dictionary inside the value has a key twice. -/
def UniqueKeys : Json → Prop
  | .arr items => UniqueKeysItems items
  | .obj fields => (fields.map Prod.fst).Nodup ∧ UniqueKeysFields fields
  | _ => True

def UniqueKeysItems : List Json → Prop
  | [] => True
  | v :: vs => UniqueKeys v ∧ UniqueKeysItems vs

def UniqueKeysFields : List (String × Json) → Prop
  | [] => True
  | (_, v) :: rest => UniqueKeys v ∧ UniqueKeysFields rest

end

mutual

def decUniqueKeys : (v : Json) → Decidable v.UniqueKeys
  | .null | .bool _ | .num _ | .str _ => isTrue (by trivial)
  | .arr items => decUniqueKeysItems items
  | .obj fields =>
    @instDecidableAnd _ _ (inferInstanceAs (Decidable (fields.map Prod.fst).Nodup))
      (decUniqueKeysFields fields)

def decUniqueKeysItems : (vs : List Json) → Decidable (UniqueKeysItems vs)
  | [] => isTrue trivial
  | v :: vs => @instDecidableAnd _ _ (decUniqueKeys v) (decUniqueKeysItems vs)

def decUniqueKeysFields : (fs : List (String × Json)) → Decidable (UniqueKeysFields fs)
  | [] => isTrue trivial
  | (_, v) :: rest => @instDecidableAnd _ _ (decUniqueKeys v) (decUniqueKeysFields rest)

end

instance (v : Json) : Decidable v.UniqueKeys := decUniqueKeys v

theorem uniqueKeysItems_iff {vs : List Json} :
    UniqueKeysItems vs ↔ ∀ v ∈ vs, v.UniqueKeys := by
  induction vs with
  | nil => simp [UniqueKeysItems]
  | cons v vs ih => simp [UniqueKeysItems, ih]

theorem uniqueKeysFields_iff {fs : List (String × Json)} :
    UniqueKeysFields fs ↔ ∀ f ∈ fs, f.2.UniqueKeys := by
  induction fs with
  | nil => simp [UniqueKeysFields]
  | cons f fs ih =>
    obtain ⟨k, v⟩ := f
    simp only [UniqueKeysFields, ih, List.forall_mem_cons]

theorem uniqueKeys_arr {vs : List Json} :
    (arr vs).UniqueKeys ↔ ∀ v ∈ vs, v.UniqueKeys := uniqueKeysItems_iff

theorem uniqueKeys_obj {fs : List (String × Json)} :
    (obj fs).UniqueKeys ↔ (fs.map Prod.fst).Nodup ∧ ∀ f ∈ fs, f.2.UniqueKeys := by
  rw [UniqueKeys, uniqueKeysFields_iff]

theorem uniqueKeys_obj_nil : (obj []).UniqueKeys := uniqueKeys_obj.mpr ⟨List.nodup_nil, List.forall_mem_nil _⟩

@[simp] theorem uniqueKeys_null : (null).UniqueKeys := trivial

@[simp] theorem uniqueKeys_bool (b : Bool) : (bool b).UniqueKeys := trivial

@[simp] theorem uniqueKeys_num (n : Number) : (num n).UniqueKeys := trivial

@[simp] theorem uniqueKeys_str (s : String) : (str s).UniqueKeys := trivial

theorem UniqueKeys.of_get {v w : Json} {key : String} (unique : v.UniqueKeys)
    (found : v.get key = some w) : w.UniqueKeys := by
  cases v with
  | obj fields =>
    obtain ⟨front, back, rfl, -⟩ := List.lookup_eq_some_iff.mp found
    exact (uniqueKeys_obj.mp unique).2 (key, w) (by simp)
  | _ => cases found

end Json

/-- `dict(pairs)`: a later pair with the same key replaces the value. -/
def dictOf (pairs : List (String × Json)) : List (String × Json) :=
  pairs.foldl (fun fields pair => dictSet fields pair.1 pair.2) []

theorem dictOf_of_nodup {pairs : List (String × Json)} (nodup : (pairs.map Prod.fst).Nodup) :
    dictOf pairs = pairs := by
  suffices step : ∀ rest done : List (String × Json),
      ((done ++ rest).map Prod.fst).Nodup →
        rest.foldl (fun fields pair => dictSet fields pair.1 pair.2) done = done ++ rest by
    simpa [dictOf] using step pairs [] (by simpa using nodup)
  intro rest
  induction rest with
  | nil => simp
  | cons pair rest ih =>
    intro done nodup
    have fresh : pair.1 ∉ done.map Prod.fst := by
      rw [List.map_append, List.map_cons] at nodup
      intro mem
      exact (List.nodup_append.mp nodup).2.2 _ mem _ List.mem_cons_self rfl
    rw [List.foldl_cons, dictSet, if_neg fresh, ih, List.append_assoc, List.singleton_append]
    simpa using nodup

theorem Json.uniqueKeys_dictOf {pairs : List (String × Json)}
    (values : ∀ pair ∈ pairs, pair.2.UniqueKeys) : (Json.obj (dictOf pairs)).UniqueKeys := by
  suffices step : ∀ rest done : List (String × Json), (∀ pair ∈ rest, pair.2.UniqueKeys) →
      (Json.obj done).UniqueKeys →
        (Json.obj (rest.foldl (fun fields pair => dictSet fields pair.1 pair.2) done)).UniqueKeys by
    exact step pairs [] values (Json.uniqueKeys_obj.mpr ⟨by simp, by simp⟩)
  intro rest
  induction rest with
  | nil => exact fun done _ unique => unique
  | cons pair rest ih =>
    intro done values unique
    obtain ⟨first, later⟩ := List.forall_mem_cons.mp values
    obtain ⟨nodup, all⟩ := Json.uniqueKeys_obj.mp unique
    exact ih _ later (Json.uniqueKeys_obj.mpr
      ⟨nodup_dictSet nodup pair.1 pair.2, forall_mem_dictSet all pair.1 first⟩)

/-! ### Natural numbers -/

theorem head_toDigits {n : Nat} (positive : 0 < n) (rest : List Char) :
    Nat.toDigits 10 n ≠ '0' :: rest := by
  induction n using Nat.strongRecOn generalizing rest with
  | ind n ih =>
    by_cases small : n < 10
    · rw [Nat.toDigits_of_lt_base small]
      intro same
      have isZero : n.digitChar = '0' := (List.cons.inj same).1
      rw [Nat.digitChar_eq_zero.mp isZero] at positive
      omega
    · rw [Nat.toDigits_of_base_le (by omega) (by omega)]
      cases digits : Nat.toDigits 10 (n / 10) with
      | nil => exact absurd digits Nat.toDigits_ne_nil
      | cons d ds =>
        intro same
        have isZero : d = '0' := (List.cons.inj same).1
        exact ih (n / 10) (by omega) (by omega) ds (by rw [digits, isZero])

theorem isNumber_repr (n : Nat) : isNumber n.repr.toList = true := by
  rw [Nat.toList_repr]
  have digit : ∀ c ∈ Nat.toDigits 10 n, c.isDigit = true := fun c mem =>
    Nat.isDigit_of_mem_toDigits (by omega) (by omega) mem
  have word : (Nat.toDigits 10 n).all isWordChar = true := by
    rw [List.all_eq_true]
    intro c mem
    simp [isWordChar, digit c mem]
  cases digits : Nat.toDigits 10 n with
  | nil => exact absurd digits Nat.toDigits_ne_nil
  | cons d ds =>
    rw [digits] at digit word
    have first := digit d List.mem_cons_self
    have notMinus : d ≠ '-' := by
      rintro rfl
      revert first
      decide
    have tail : ds.dropWhile Char.isDigit = [] := by
      rw [List.dropWhile_eq_nil_iff]
      exact fun c mem => digit c (List.mem_cons_of_mem _ mem)
    rw [isNumber, word]
    simp only [Bool.true_and, Bool.or_eq_true]
    refine .inr ?_
    split
    · rename_i rest same
      -- only zero itself starts with a zero
      have zero : n = 0 := by
        by_contra positive
        exact head_toDigits (by omega) rest (digits.trans same)
      rw [zero, Nat.toDigits_zero] at digits
      cases digits
      cases same
      rfl
    · rename_i same
      cases same
      rw [first, tail]
      rfl
    · rename_i absurd
      cases absurd
    · intro rest same
      exact notMinus (List.cons.inj same).1

/-- A natural number as a value. -/
def Json.nat (n : Nat) : Json := .num ⟨n.repr, isNumber_repr n⟩

@[simp] theorem Json.uniqueKeys_nat (n : Nat) : (Json.nat n).UniqueKeys := trivial

/-! ### Equality without order -/

namespace Json

mutual

/-- `==`: dictionaries are compared without their order. -/
def pyEq : Json → Json → Bool
  | .arr xs, .arr ys => pyEqItems xs ys
  | .obj xs, .obj ys => xs.length = ys.length && pyEqFields xs ys
  | v, w => v = w

def pyEqItems : List Json → List Json → Bool
  | [], [] => true
  | x :: xs, y :: ys => pyEq x y && pyEqItems xs ys
  | _, _ => false

/-- Every entry is an entry of the other dictionary. -/
def pyEqFields : List (String × Json) → List (String × Json) → Bool
  | [], _ => true
  | (key, x) :: xs, ys =>
    (match ys.lookup key with
      | some y => pyEq x y
      | none => false) && pyEqFields xs ys

end

mutual

theorem pyEq_refl : (v : Json) → v.UniqueKeys → pyEq v v = true
  | .null, _ | .bool _, _ | .num _, _ | .str _, _ => by simp [pyEq]
  | .arr items, unique => by
    rw [pyEq]
    exact pyEqItems_refl items unique
  | .obj fields, unique => by
    rw [pyEq, decide_eq_true rfl, Bool.true_and]
    refine pyEqFields_refl fields fields unique.2 fun key x mem => ?_
    exact lookup_of_mem unique.1 mem

theorem pyEqItems_refl : (vs : List Json) → UniqueKeysItems vs → pyEqItems vs vs = true
  | [], _ => rfl
  | v :: vs, unique => by rw [pyEqItems, pyEq_refl v unique.1, pyEqItems_refl vs unique.2, Bool.and_self]

theorem pyEqFields_refl : (xs ys : List (String × Json)) → UniqueKeysFields xs →
    (∀ key x, (key, x) ∈ xs → ys.lookup key = some x) → pyEqFields xs ys = true
  | [], _, _, _ => rfl
  | (key, x) :: xs, ys, unique, found => by
    rw [pyEqFields, found key x List.mem_cons_self,
      pyEqFields_refl xs ys unique.2 fun other y mem => found other y (List.mem_cons_of_mem _ mem), Bool.and_true]
    exact pyEq_refl x unique.1

end

end Json

end AgentPark.Lib
