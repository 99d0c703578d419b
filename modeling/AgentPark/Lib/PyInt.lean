import AgentPark.Lib.Json

/-!
# Integers as values
-/

namespace AgentPark.Lib

theorem isNumber_neg (n : Nat) : isNumber ("-" ++ n.repr).toList = true := by
  have text : ("-" ++ n.repr).toList = '-' :: n.repr.toList := by rw [String.toList_append]; rfl
  have number := isNumber_repr n
  have first : ∀ c cs, n.repr.toList = c :: cs → c.isDigit = true := by
    intro c cs same
    rw [Nat.toList_repr] at same
    exact Nat.isDigit_of_mem_toDigits (by omega) (by omega) (same ▸ List.mem_cons_self)
  rw [text]
  cases digits : n.repr.toList with
  | nil => rw [digits] at number; cases number
  | cons d ds =>
    have digit := first d ds digits
    rw [digits] at number
    have other : ∀ c rest, c.isDigit = false → d :: ds ≠ c :: rest := by
      intro c rest letter same
      rw [(List.cons.inj same).1, letter] at digit
      exact Bool.false_ne_true digit
    simp only [isNumber, Bool.and_eq_true, Bool.or_eq_true, beq_iff_eq] at number ⊢
    obtain ⟨word, shape⟩ := number
    refine ⟨?_, .inr ?_⟩
    · rw [List.all_cons, word]
      rfl
    · rcases shape with ((nan | infinity) | minus) | unsigned
      · exact absurd nan (other 'N' _ (by decide))
      · exact absurd infinity (other 'I' _ (by decide))
      · exact absurd minus (other '-' _ (by decide))
      · split at unsigned
        · rename_i same
          exact absurd same (other '-' _ (by decide))
        · exact unsigned

/-- An integer as a value. -/
def Json.int : Int → Json
  | .ofNat n => .nat n
  | .negSucc n => .num ⟨"-" ++ (n + 1).repr, isNumber_neg (n + 1)⟩

/-- The value of a character of the class `\d`. -/
def decimalValue (c : Char) : Option Nat :=
  (decimalZeros.find? fun first => first ≤ c.toNat && c.toNat < first + 10).map (c.toNat - ·)

/-- The digits behind the first one, with single underscores between them. -/
def scanDigits : Nat → List Char → Option Nat
  | value, [] => some value
  | value, '_' :: c :: cs => (decimalValue c).bind fun digit => scanDigits (10 * value + digit) cs
  | value, c :: cs => (decimalValue c).bind fun digit => scanDigits (10 * value + digit) cs

/-- A number without a sign. -/
def pyNatText : List Char → Option Nat
  | [] => none
  | c :: cs => (decimalValue c).bind fun digit => scanDigits digit cs

/-- `int(text)` -/
def pyIntText (cs : List Char) : Option Int :=
  match stripList pyIsSpace cs with
  | '-' :: cs => (pyNatText cs).map fun n => -(n : Int)
  | '+' :: cs => (pyNatText cs).map Int.ofNat
  | cs => (pyNatText cs).map Int.ofNat

/-- The number is no float. -/
def Number.isInteger (n : Number) : Bool := n.text.toList.all fun c => c.isDigit || c == '-'

/-- `int(value)`, nothing when it raises.  `floatInt` stands for the integer part of a float. -/
def Json.pyInt (floatInt : Number → Option Int) : Json → Option Int
  | .bool b => some b.toNat
  | .num n => if n.isInteger then pyIntText n.text.toList else floatInt n
  | .str text => pyIntText text.toList
  | .null | .arr _ | .obj _ => none

theorem decimalValue_of_isDigit {c : Char} (digit : c.isDigit = true) :
    decimalValue c = some (c.toNat - '0'.toNat) := by
  rw [Char.isDigit, Bool.and_eq_true, decide_eq_true_eq, decide_eq_true_eq] at digit
  have lower : 48 ≤ c.toNat := digit.1
  have upper : c.toNat ≤ 57 := digit.2
  have first : (decide (0x30 ≤ c.toNat) && decide (c.toNat < 0x30 + 10)) = true := by
    rw [Bool.and_eq_true, decide_eq_true_eq, decide_eq_true_eq]
    omega
  have found : decimalZeros.find? (fun first => first ≤ c.toNat && c.toNat < first + 10) = some 0x30 :=
    List.find?_cons_of_pos first
  rw [decimalValue, found]
  rfl

theorem scanDigits_of_isDigit {cs : List Char} (digits : ∀ c ∈ cs, c.isDigit = true) (value : Nat) :
    scanDigits value cs = some (Nat.ofDigitChars 10 cs value) := by
  induction cs generalizing value with
  | nil => rw [scanDigits, Nat.ofDigitChars_nil]
  | cons c cs ih =>
    obtain ⟨first, rest⟩ := List.forall_mem_cons.mp digits
    have notBar : c ≠ '_' := by
      intro same
      rw [same] at first
      revert first
      decide
    rw [scanDigits, decimalValue_of_isDigit first, Nat.ofDigitChars_cons]
    · exact ih rest _
    · exact fun _ _ same _ => notBar same

theorem pyNatText_of_isDigit {cs : List Char} (notNil : cs ≠ []) (digits : ∀ c ∈ cs, c.isDigit = true) :
    pyNatText cs = some (Nat.ofDigitChars 10 cs 0) := by
  cases cs with
  | nil => exact absurd rfl notNil
  | cons c cs =>
    obtain ⟨first, rest⟩ := List.forall_mem_cons.mp digits
    rw [pyNatText, decimalValue_of_isDigit first, Nat.ofDigitChars_cons, Nat.mul_zero, Nat.zero_add]
    exact scanDigits_of_isDigit rest _

theorem pyIsSpace_of_isDigit {c : Char} (digit : c.isDigit = true) : pyIsSpace c = false := by
  rw [Char.isDigit, Bool.and_eq_true, decide_eq_true_eq, decide_eq_true_eq] at digit
  have lower : 48 ≤ c.toNat := digit.1
  have upper : c.toNat ≤ 57 := digit.2
  simp only [pyIsSpace, Bool.or_eq_false_iff, Bool.and_eq_false_iff, decide_eq_false_iff_not,
    List.contains_eq_mem, List.mem_cons, List.not_mem_nil, not_or]
  refine ⟨⟨⟨?_, ?_⟩, ?_⟩, ?_⟩
  · omega
  · omega
  · omega
  · simp only [not_false_eq_true, and_true]
    omega

theorem stripList_of_forall {β : Type*} {p : β → Bool} {xs : List β} (kept : ∀ x ∈ xs, p x = false) :
    stripList p xs = xs := by
  have whole : ∀ ys : List β, (∀ y ∈ ys, p y = false) → ys.dropWhile p = ys := by
    intro ys kept
    cases ys with
    | nil => rfl
    | cons y ys =>
      rw [List.dropWhile_cons_of_neg]
      rw [kept y List.mem_cons_self]
      exact Bool.false_ne_true
  rw [stripList, whole xs kept, whole xs.reverse, List.reverse_reverse]
  exact fun x mem => kept x (List.mem_reverse.mp mem)

theorem isInteger_repr (n : Nat) : Number.isInteger ⟨n.repr, isNumber_repr n⟩ = true := by
  rw [Number.isInteger, Nat.toList_repr, List.all_eq_true]
  intro c mem
  rw [Nat.isDigit_of_mem_toDigits (by omega) (by omega) mem, Bool.true_or]

theorem Json.pyInt_nat (floatInt : Number → Option Int) (n : Nat) :
    (Json.nat n).pyInt floatInt = some (n : Int) := by
  have digits : ∀ c ∈ Nat.toDigits 10 n, c.isDigit = true := fun c mem =>
    Nat.isDigit_of_mem_toDigits (by omega) (by omega) mem
  have stripped : stripList pyIsSpace (Nat.toDigits 10 n) = Nat.toDigits 10 n :=
    stripList_of_forall fun c mem => pyIsSpace_of_isDigit (digits c mem)
  have read := pyNatText_of_isDigit Nat.toDigits_ne_nil digits
  rw [Nat.ofDigitChars_ten_toDigits] at read
  rw [Json.nat, Json.pyInt, if_pos (isInteger_repr n), Nat.toList_repr, pyIntText, stripped]
  -- the first character is a digit, so that there is no sign
  split
  · rename_i cs same
    rw [same] at digits
    exact absurd (digits '-' List.mem_cons_self) (by decide)
  · rename_i cs same
    rw [same] at digits
    exact absurd (digits '+' List.mem_cons_self) (by decide)
  · rw [read]
    rfl

end AgentPark.Lib
