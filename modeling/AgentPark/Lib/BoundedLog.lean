import Mathlib.Data.List.Basic

/-!
# The end of a log

A bounded deque keeps the last entries of what was appended to it.

* `Numbered number base log`: the entries carry their positions behind `base`.
-/

namespace AgentPark.Lib

variable {α : Type*}

/-- `append` of a `deque(maxlen=limit)` -/
def appendBounded (limit : Nat) (xs : List α) (x : α) : List α :=
  (xs ++ [x]).drop (xs.length + 1 - limit)

/-- The last entries of a log. -/
def retained (limit : Nat) (log : List α) : List α := log.drop (log.length - limit)

/-- An append is the step of `retained`. -/
theorem appendBounded_retained (limit : Nat) (log : List α) (x : α) :
    appendBounded limit (retained limit log) x = retained limit (log ++ [x]) := by
  have kept : retained limit log ++ [x] = (log ++ [x]).drop (log.length - limit) :=
    (List.drop_append_of_le_length (Nat.sub_le _ _)).symm
  have size : (retained limit log).length = log.length - (log.length - limit) := List.length_drop
  rw [appendBounded, kept, List.drop_drop, size, retained, List.length_append, List.length_singleton]
  congr 1
  omega

/-- The entries of a log carry their positions, counted from `base + 1`. -/
def Numbered (number : α → Nat) (base : Nat) (log : List α) : Prop :=
  ∀ i x, log[i]? = some x → number x = base + i + 1

namespace Numbered

variable {number : α → Nat} {base : Nat} {log : List α}

theorem nil : Numbered number base ([] : List α) := by
  intro i x found
  rw [List.getElem?_nil] at found
  cases found

theorem concat (numbered : Numbered number base log) {x : α}
    (next : number x = base + log.length + 1) : Numbered number base (log ++ [x]) := by
  intro i y found
  rcases Nat.lt_or_ge i log.length with inside | outside
  · rw [List.getElem?_append_left inside] at found
    exact numbered i y found
  · rw [List.getElem?_append_right outside] at found
    obtain ⟨here, same⟩ := List.getElem?_eq_some_iff.mp found
    rw [List.length_singleton] at here
    have last : i = log.length := by omega
    rw [List.getElem_singleton] at same
    rw [← same, next, last]

theorem tail {x : α} (numbered : Numbered number base (x :: log)) : Numbered number (base + 1) log := by
  intro i y found
  have place := numbered (i + 1) y (by rwa [List.getElem?_cons_succ])
  omega

theorem drop (numbered : Numbered number base log) (count : Nat) :
    Numbered number (base + count) (log.drop count) := by
  intro i y found
  rw [List.getElem?_drop] at found
  have place := numbered _ y found
  omega

theorem find? (numbered : Numbered number base log) (last : Nat) :
    log.find? (fun x => decide (last < number x)) = log[last - base]? := by
  induction log generalizing base with
  | nil => rfl
  | cons x log ih =>
    have first := numbered 0 x rfl
    rcases Nat.lt_or_ge last (number x) with below | above
    · have start : last - base = 0 := by omega
      rw [List.find?_cons_of_pos (by rwa [decide_eq_true_iff]), start, List.getElem?_cons_zero]
    · have later : last - base = last - (base + 1) + 1 := by omega
      rw [List.find?_cons_of_neg (by rw [decide_eq_true_iff]; omega), ih numbered.tail, later,
        List.getElem?_cons_succ]

end Numbered

/-- The first entry kept with a number over `last`. -/
theorem find?_retained {number : α → Nat} {log : List α} (numbered : Numbered number 0 log)
    (limit last : Nat) :
    (retained limit log).find? (fun x => decide (last < number x)) =
      log[max last (log.length - limit)]? := by
  have place : log.length - limit + (last - (0 + (log.length - limit))) =
      max last (log.length - limit) := by
    omega
  rw [retained, (numbered.drop _).find?, List.getElem?_drop, place]

theorem head?_retained (limit : Nat) (log : List α) :
    (retained limit log).head? = log[log.length - limit]? := by
  rw [retained, List.head?_drop]

end AgentPark.Lib
