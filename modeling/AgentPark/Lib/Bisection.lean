import Mathlib.Tactic.Common

/-!
# Bisection for the largest position

A search halves an interval: behind a position that is accepted it goes on with the larger ones, behind
another one with the smaller ones, and it answers with what it found last.
-/

namespace AgentPark.Lib

variable {α : Type*}

/-- The search between `low` and `stop`, which is not looked at. -/
def bisect (probe : Nat → Option α) (low stop : Nat) (best : Option α) : Option α :=
  if low < stop then
    let middle := (low + (stop - 1)) / 2
    match probe middle with
    | some found => bisect probe (middle + 1) stop (some found)
    | none => bisect probe low middle best
  else best
termination_by stop - low

/-- The positions on the way to a target. -/
def bisectPath (target low stop : Nat) : List Nat :=
  if low < stop then
    let middle := (low + (stop - 1)) / 2
    if middle ≤ target then middle :: bisectPath target (middle + 1) stop
    else middle :: bisectPath target low middle
  else []
termination_by stop - low

variable {probe : Nat → Option α}

theorem bisect_of_not_lt {low stop : Nat} (empty : ¬ low < stop) (best : Option α) :
    bisect probe low stop best = best := by
  rw [bisect, if_neg empty]

theorem bisect_of_some {low stop : Nat} (lt : low < stop) {found : α}
    (accepted : probe ((low + (stop - 1)) / 2) = some found) (best : Option α) :
    bisect probe low stop best = bisect probe ((low + (stop - 1)) / 2 + 1) stop (some found) := by
  rw [bisect, if_pos lt]
  dsimp only
  rw [accepted]

theorem bisect_of_none {low stop : Nat} (lt : low < stop)
    (rejected : probe ((low + (stop - 1)) / 2) = none) (best : Option α) :
    bisect probe low stop best = bisect probe low ((low + (stop - 1)) / 2) best := by
  rw [bisect, if_pos lt]
  dsimp only
  rw [rejected]

theorem bisect_mem (low stop : Nat) (best : Option α) :
    bisect probe low stop best = best ∨
      ∃ position, low ≤ position ∧ position < stop ∧ bisect probe low stop best = probe position ∧
        probe position ≠ none := by
  induction low, stop, best using bisect.induct probe with
  | case1 low stop best lt middle found accepted ih =>
    rw [bisect_of_some lt accepted]
    have lower : low ≤ middle := by omega
    have upper : middle < stop := by omega
    rcases ih with same | ⟨position, ge, below, eq, some⟩
    · exact .inr ⟨middle, lower, upper, by rw [accepted]; exact same,
        by rw [accepted]; exact Option.some_ne_none _⟩
    · exact .inr ⟨position, by omega, below, eq, some⟩
  | case2 low stop best lt middle rejected ih =>
    rw [bisect_of_none lt rejected]
    have upper : middle < stop := by omega
    rcases ih with same | ⟨position, ge, below, eq, some⟩
    · exact .inl same
    · exact .inr ⟨position, ge, by omega, eq, some⟩
  | case3 low stop best empty => exact .inl (bisect_of_not_lt empty best)

theorem bisect_of_forall_none {low stop : Nat}
    (rejected : ∀ position, low ≤ position → position < stop → probe position = none)
    (best : Option α) : bisect probe low stop best = best := by
  rcases @bisect_mem _ probe low stop best with same | ⟨position, ge, below, -, some⟩
  · exact same
  · exact absurd (rejected position ge below) some

theorem mem_bisectPath {target low stop position : Nat} (mem : position ∈ bisectPath target low stop) :
    low ≤ position ∧ position < stop := by
  induction low, stop using bisectPath.induct target with
  | case1 low stop lt middle notBehind ih =>
    rw [bisectPath, if_pos lt] at mem
    dsimp only at mem
    rw [if_pos notBehind] at mem
    rcases List.mem_cons.mp mem with here | later
    · omega
    · have bounds := ih later
      omega
  | case2 low stop lt middle behind ih =>
    rw [bisectPath, if_pos lt] at mem
    dsimp only at mem
    rw [if_neg behind] at mem
    rcases List.mem_cons.mp mem with here | later
    · omega
    · have bounds := ih later
      omega
  | case3 low stop empty =>
    rw [bisectPath, if_neg empty] at mem
    cases mem

/-- The search finds the largest accepted position exactly when every position on the way to it that is
not behind it is accepted. -/
theorem bisect_eq_iff {target : Nat} {found : α} (accepted : probe target = some found)
    (distinct : ∀ position, probe position = some found → position = target) {low stop : Nat}
    (ge : low ≤ target) (below : target < stop)
    (largest : ∀ position, target < position → position < stop → probe position = none)
    {best : Option α} (other : best ≠ some found) :
    bisect probe low stop best = some found ↔
      ∀ position ∈ bisectPath target low stop, position ≤ target → probe position ≠ none := by
  induction low, stop, best using bisect.induct probe with
  | case1 low stop best lt middle value here ih =>
    have notBehind : middle ≤ target := by
      by_contra behind
      have upper : middle < stop := by omega
      rw [largest middle (by omega) upper] at here
      cases here
    have path : bisectPath target low stop = middle :: bisectPath target (middle + 1) stop := by
      rw [bisectPath, if_pos lt]
      exact if_pos notBehind
    rw [bisect_of_some lt here, path, List.forall_mem_cons, here]
    have head : (middle ≤ target → some value ≠ none) ↔ True :=
      iff_true_intro fun _ => Option.some_ne_none _
    rw [head, true_and]
    rcases Nat.lt_or_ge middle target with before | at_
    · refine ih (by omega) below largest ?_
      intro same
      have isTarget := distinct middle (here.trans same)
      omega
    · -- the target has been found, and nothing behind it is accepted
      have same : middle = target := by omega
      have value_eq : value = found := by
        rw [same, accepted] at here
        exact (Option.some.inj here).symm
      rw [value_eq]
      refine iff_of_true ?_ ?_
      · apply bisect_of_forall_none
        intro position after upto
        exact largest position (by omega) upto
      · intro position mem le
        have bounds := mem_bisectPath mem
        omega
  | case2 low stop best lt middle rejected ih =>
    rw [bisect_of_none lt rejected]
    by_cases notBehind : middle ≤ target
    · -- what is rejected stands before the target, which is lost
      have path : bisectPath target low stop = middle :: bisectPath target (middle + 1) stop := by
        rw [bisectPath, if_pos lt]
        exact if_pos notBehind
      rw [path, List.forall_mem_cons]
      refine iff_of_false ?_ fun both => both.1 notBehind rejected
      intro eq
      rcases @bisect_mem _ probe low middle best with same | ⟨position, _, before, same, _⟩
      · exact other (same.symm.trans eq)
      · have isTarget := distinct position (same.symm.trans eq)
        omega
    · have path : bisectPath target low stop = middle :: bisectPath target low middle := by
        rw [bisectPath, if_pos lt]
        exact if_neg notBehind
      have skip : (middle ≤ target → probe middle ≠ none) ↔ True :=
        iff_true_intro fun le => absurd le notBehind
      rw [path, List.forall_mem_cons, skip, true_and]
      exact ih ge (by omega) (fun position after upto => largest position after (by omega)) other
  | case3 low stop best empty => omega

end AgentPark.Lib
