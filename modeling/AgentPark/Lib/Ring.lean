import Mathlib.Data.List.Basic
import Mathlib.Data.Nat.ModEq
import Mathlib.Tactic.Common

/-!
# A queue in a ring

A ring keeps a queue in a file: the `i`-th element stands at the position `(start + i) % capacity`, and
the file need not reach as far as its capacity.

* `InRing content capacity start queue`: the file has the queue.
* `InRing.overwrite` puts a chunk behind the queue and `InRing.overwrite_apart` says that it touches none
  of it; `InRing.slice` reads a chunk from its front and `InRing.drop` takes it off.
-/

namespace AgentPark.Lib

variable {α : Type*}

/-- A write of the elements at the position; `zero` fills up a file that ends before it. -/
def overwrite (zero : α) (content : List α) (position : Nat) (chunk : List α) : List α :=
  content.take position ++ List.replicate (position - content.length) zero ++ chunk ++
    content.drop (position + chunk.length)

variable {zero : α} {content chunk : List α} {position i : Nat}

theorem getElem?_overwrite_of_mem (lt : i < chunk.length) :
    (overwrite zero content position chunk)[position + i]? = chunk[i]? := by
  have front : (content.take position ++ List.replicate (position - content.length) zero).length =
      position := by
    rw [List.length_append, List.length_take, List.length_replicate]
    omega
  rw [overwrite, List.append_assoc, List.getElem?_append_right (by omega), front, Nat.add_sub_cancel_left,
    List.getElem?_append_left lt]

theorem getElem?_overwrite_of_before (lt : i < position) (inside : i < content.length) :
    (overwrite zero content position chunk)[i]? = content[i]? := by
  have first : i < (content.take position).length := by
    rw [List.length_take]
    omega
  rw [overwrite, List.append_assoc, List.append_assoc, List.getElem?_append_left first,
    List.getElem?_take_of_lt lt]

theorem getElem?_overwrite_of_behind (le : position + chunk.length ≤ i)
    (inside : i < content.length) :
    (overwrite zero content position chunk)[i]? = content[i]? := by
  have front : (content.take position ++ List.replicate (position - content.length) zero ++ chunk).length =
      position + chunk.length := by
    rw [List.length_append, List.length_append, List.length_take, List.length_replicate]
    omega
  rw [overwrite, List.getElem?_append_right (by omega), front, List.getElem?_drop,
    Nat.add_sub_cancel' le]

theorem getElem?_overwrite_of_apart {a : α} (has : content[i]? = some a)
    (apart : ∀ j < chunk.length, position + j ≠ i) :
    (overwrite zero content position chunk)[i]? = some a := by
  have inside : i < content.length := (List.getElem?_eq_some_iff.mp has).1
  rcases Nat.lt_or_ge i position with before | behind
  · rw [getElem?_overwrite_of_before before inside, has]
  · rw [getElem?_overwrite_of_behind _ inside, has]
    by_contra within
    exact apart (i - position) (by omega) (by omega)

/-- The file has the queue from `start` on, round the capacity. -/
structure InRing (content : List α) (capacity start : Nat) (queue : List α) : Prop where
  fits : queue.length ≤ capacity
  has : ∀ i (lt : i < queue.length), content[(start + i) % capacity]? = some queue[i]

namespace InRing

variable {content queue : List α} {capacity start : Nat}

theorem nil (content : List α) (capacity start : Nat) : InRing content capacity start [] where
  fits := Nat.zero_le capacity
  has i lt := absurd lt (Nat.not_lt_zero i)

theorem mod_ne_mod {capacity a b : Nat} (lt : a < b) (near : b < a + capacity) :
    a % capacity ≠ b % capacity := by
  intro same
  have divides := (Nat.modEq_iff_dvd' lt.le).mp same
  obtain ⟨k, eq⟩ := divides
  rcases Nat.eq_zero_or_pos k with zero | positive
  · rw [zero, Nat.mul_zero] at eq
    omega
  · have le : capacity ≤ capacity * k := Nat.le_mul_of_pos_right capacity positive
    omega

variable {position : Nat}

theorem behind_add {count : Nat} (isNext : position = (start + queue.length) % capacity)
    (inside : position + count ≤ capacity) {j : Nat} (lt : j < count) :
    (start + queue.length + j) % capacity = position + j := by
  rw [Nat.add_mod, ← isNext, Nat.mod_eq_of_lt (show j < capacity by omega),
    Nat.mod_eq_of_lt (by omega)]

theorem overwrite_apart (chunk : List α) (isNext : position = (start + queue.length) % capacity)
    (inside : position + chunk.length ≤ capacity) (room : queue.length + chunk.length ≤ capacity)
    {i : Nat} (lt : i < queue.length) :
    ∀ j < chunk.length, position + j ≠ (start + i) % capacity := by
  intro j ltChunk same
  rw [← behind_add isNext inside ltChunk] at same
  exact mod_ne_mod (show start + i < start + queue.length + j by omega) (by omega) same.symm

theorem overwrite (ring : InRing content capacity start queue) (zero : α) {chunk : List α}
    (isNext : position = (start + queue.length) % capacity)
    (inside : position + chunk.length ≤ capacity) (room : queue.length + chunk.length ≤ capacity) :
    InRing (Lib.overwrite zero content position chunk) capacity start (queue ++ chunk) := by
  refine ⟨?_, ?_⟩
  · rw [List.length_append]
    exact room
  · intro i lt
    rw [List.length_append] at lt
    rcases Nat.lt_or_ge i queue.length with old | new
    · rw [List.getElem_append_left old]
      exact getElem?_overwrite_of_apart (ring.has i old) (overwrite_apart chunk isNext inside room old)
    · obtain ⟨j, rfl⟩ := Nat.exists_eq_add_of_le new
      have ltChunk : j < chunk.length := by omega
      rw [← Nat.add_assoc, behind_add isNext inside ltChunk, getElem?_overwrite_of_mem ltChunk,
        List.getElem_append_right (by omega), List.getElem?_eq_getElem ltChunk]
      simp only [Nat.add_sub_cancel_left]

theorem slice (ring : InRing content capacity start queue) {count : Nat} (le : count ≤ queue.length)
    (inside : start + count ≤ capacity) : (content.drop start).take count = queue.take count := by
  have here : ∀ i < count, content[start + i]? = queue[i]? := by
    intro i lt
    have has := ring.has i (by omega)
    rw [Nat.mod_eq_of_lt (by omega)] at has
    rw [has, List.getElem?_eq_getElem]
  apply List.ext_getElem?
  intro i
  rcases Nat.lt_or_ge i count with lt | ge
  · rw [List.getElem?_take_of_lt lt, List.getElem?_take_of_lt lt, List.getElem?_drop, here i lt]
  · rw [List.getElem?_take_eq_none ge, List.getElem?_take_eq_none ge]

theorem drop (ring : InRing content capacity start queue) (count : Nat) :
    InRing content capacity ((start + count) % capacity) (queue.drop count) := by
  refine ⟨?_, ?_⟩
  · rw [List.length_drop]
    exact (Nat.sub_le _ _).trans ring.fits
  · intro i lt
    rw [List.length_drop] at lt
    rw [Nat.mod_add_mod, List.getElem_drop, Nat.add_assoc]
    exact ring.has (count + i) (by omega)

end InRing

end AgentPark.Lib
