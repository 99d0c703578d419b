import Mathlib.Data.List.Basic
import Mathlib.Data.List.Nodup
import Mathlib.Data.List.Pairwise
import Mathlib.Order.Defs.LinearOrder
import Mathlib.Order.Lattice

/-!
# Stable sorting by a key

Sorting by a key keeps the order of the elements with the same key.
-/

namespace AgentPark.Lib

section

variable {α κ : Type*} [LinearOrder κ] (key : α → κ)

/-- `items.sort(key=key)`. -/
def sortBy (items : List α) : List α := items.mergeSort fun a b => key a ≤ key b

def SortedBy (items : List α) : Prop := items.Pairwise fun a b => key a ≤ key b

theorem sortBy_perm (items : List α) : (sortBy key items).Perm items := List.mergeSort_perm items _

theorem key_trans (a b c : α) (first : decide (key a ≤ key b) = true) (second : decide (key b ≤ key c) = true) :
    decide (key a ≤ key c) = true :=
  decide_eq_true (le_trans (of_decide_eq_true first) (of_decide_eq_true second))

theorem key_total (a b : α) : (decide (key a ≤ key b) || decide (key b ≤ key a)) = true := by
  rw [Bool.or_eq_true, decide_eq_true_eq, decide_eq_true_eq]
  exact le_total (key a) (key b)

theorem sortBy_sorted (items : List α) : SortedBy key (sortBy key items) :=
  (List.pairwise_mergeSort (key_trans key) (key_total key) items).imp fun le => of_decide_eq_true le

/-- The elements with a key, in the order they had. -/
theorem filter_sortBy (items : List α) (k : κ) :
    (sortBy key items).filter (fun a => key a = k) = items.filter fun a => key a = k := by
  have alike : (items.filter fun a => key a = k).Pairwise fun a b => decide (key a ≤ key b) = true := by
    refine (List.pairwise_of_forall_mem_list fun a inA b inB => ?_)
    have isA := of_decide_eq_true (List.mem_filter.mp inA).2
    have isB := of_decide_eq_true (List.mem_filter.mp inB).2
    exact decide_eq_true (le_of_eq (isA.trans isB.symm))
  have sub := List.sublist_mergeSort (key_trans key) (key_total key) alike List.filter_sublist
  have filtered := sub.filter fun a => decide (key a = k)
  rw [List.filter_filter] at filtered
  simp only [Bool.and_self] at filtered
  have sameLength := ((sortBy_perm key items).filter fun a => decide (key a = k)).length_eq
  exact (filtered.eq_of_length sameLength.symm).symm

theorem SortedBy.eq_of_filter {xs ys : List α} (sortedXs : SortedBy key xs) (sortedYs : SortedBy key ys)
    (same : ∀ k, xs.filter (fun a => key a = k) = ys.filter fun a => key a = k) : xs = ys := by
  have mem_of_same : ∀ {xs ys : List α}, (∀ k, xs.filter (fun a => key a = k) = ys.filter fun a => key a = k) →
      ∀ {a}, a ∈ xs → a ∈ ys := by
    intro xs ys same a mem
    have inFilter : a ∈ xs.filter fun b => key b = key a := List.mem_filter.mpr ⟨mem, decide_eq_true rfl⟩
    rw [same] at inFilter
    exact (List.mem_filter.mp inFilter).1
  induction xs generalizing ys with
  | nil =>
    cases ys with
    | nil => rfl
    | cons y ys => exact absurd (mem_of_same (fun k => (same k).symm) List.mem_cons_self) List.not_mem_nil
  | cons x xs ih =>
    cases ys with
    | nil => exact absurd (mem_of_same same List.mem_cons_self) List.not_mem_nil
    | cons y ys =>
      obtain ⟨xLeast, laterXs⟩ := List.pairwise_cons.mp sortedXs
      obtain ⟨yLeast, laterYs⟩ := List.pairwise_cons.mp sortedYs
      have sameKey : key x = key y := by
        refine le_antisymm ?_ ?_
        · rcases List.mem_cons.mp (mem_of_same (fun k => (same k).symm) (List.mem_cons_self (a := y))) with rfl | mem
          · exact le_rfl
          · exact xLeast y mem
        · rcases List.mem_cons.mp (mem_of_same same (List.mem_cons_self (a := x))) with rfl | mem
          · exact le_rfl
          · exact yLeast x mem
      have heads := same (key x)
      simp only [List.filter_cons, ← sameKey, decide_true, if_true] at heads
      obtain rfl := (List.cons.inj heads).1
      refine congrArg (x :: ·) (ih laterXs laterYs fun k => ?_)
      have tails := same k
      rw [List.filter_cons, List.filter_cons] at tails
      split_ifs at tails with isKey
      · exact (List.cons.inj tails).2
      · exact tails

/-- A sorted list is the result exactly when it has, for each key, the same elements in the same order. -/
theorem sortBy_eq_iff {items sorted : List α} : sortBy key items = sorted ↔
    SortedBy key sorted ∧ ∀ k, sorted.filter (fun a => key a = k) = items.filter fun a => key a = k := by
  constructor
  · rintro rfl
    exact ⟨sortBy_sorted key items, filter_sortBy key items⟩
  · rintro ⟨isSorted, same⟩
    exact (sortBy_sorted key items).eq_of_filter key isSorted fun k => (filter_sortBy key items k).trans (same k).symm

/-- What sorting gives when the keys are distinct. -/
theorem map_sortBy_of_perm {β : Type*} (f : β → α) {items : List β} {sorted : List α}
    (perm : (items.map f).Perm sorted) (increasing : sorted.Pairwise fun a b => key a < key b) :
    (sortBy (fun item => key (f item)) items).map f = sorted := by
  have isSorted : ((sortBy (fun item => key (f item)) items).map f).Pairwise fun a b => key a ≤ key b :=
    List.pairwise_map.mpr (sortBy_sorted (fun item => key (f item)) items)
  have isPerm := ((sortBy_perm (fun item => key (f item)) items).map f).trans perm
  refine isPerm.eq_of_pairwise ?_ isSorted (increasing.imp le_of_lt)
  intro a b isA isB below above
  have distinct : (sorted.map key).Nodup := List.pairwise_map.mpr (increasing.imp ne_of_lt)
  exact List.inj_on_of_nodup_map distinct (isPerm.mem_iff.mp isA) isB (le_antisymm below above)

/-! ### Taking elements out and sorting them back in -/

/-- The elements of a marked list that stay. -/
def kept (marked : List (α × Bool)) : List α := (marked.filter fun entry => !entry.2).map Prod.fst

/-- The elements of a marked list that are taken out. -/
def gone (marked : List (α × Bool)) : List α := (marked.filter fun entry => entry.2).map Prod.fst

theorem filter_append_filter {p : α → Bool} {items : List α} (ordered : items.Pairwise fun a b => p a = true → p b = true) :
    items.filter (fun a => !p a) ++ items.filter p = items := by
  induction items with
  | nil => rfl
  | cons a items ih =>
    obtain ⟨first, later⟩ := List.pairwise_cons.mp ordered
    cases isMarked : p a with
    | true =>
      have all := fun b mem => first b mem isMarked
      have none : items.filter (fun a => !p a) = [] :=
        List.filter_eq_nil_iff.mpr fun b mem => by simp [all b mem]
      rw [List.filter_cons_of_neg (by simp [isMarked]), none, List.nil_append,
        List.filter_cons_of_pos isMarked, List.filter_eq_self.mpr all]
    | false =>
      rw [List.filter_cons_of_pos (by simp [isMarked]), List.filter_cons_of_neg (by simp [isMarked]),
        List.cons_append, ih later]

theorem filter_map_fst (marked : List (α × Bool)) (k : κ) :
    (marked.map Prod.fst).filter (fun a => key a = k) =
      (marked.filter fun entry => key entry.1 = k).map Prod.fst := by
  rw [List.filter_map]
  rfl

theorem filter_kept (marked : List (α × Bool)) (k : κ) :
    (kept marked).filter (fun a => key a = k) = kept (marked.filter fun entry => key entry.1 = k) := by
  rw [kept, kept, filter_map_fst, List.filter_filter, List.filter_filter]
  simp only [Bool.and_comm]

theorem filter_gone (marked : List (α × Bool)) (k : κ) :
    (gone marked).filter (fun a => key a = k) = gone (marked.filter fun entry => key entry.1 = k) := by
  rw [gone, gone, filter_map_fst, List.filter_filter, List.filter_filter]
  simp only [Bool.and_comm]

/-- Elements come back to their places by sorting exactly when the list was sorted and none of them stood in front
of one with the same key that stayed. -/
theorem sortBy_unmark_iff {marked : List (α × Bool)} (apart : ∀ a ∈ kept marked, a ∉ gone marked) :
    sortBy key (kept marked ++ gone marked) = marked.map Prod.fst ↔
      marked.Pairwise fun a b => key a.1 ≤ key b.1 ∧ (a.2 = true → b.2 = false → key a.1 < key b.1) := by
  rw [sortBy_eq_iff, SortedBy, List.pairwise_map]
  constructor
  · rintro ⟨sorted, same⟩
    refine sorted.and (List.pairwise_iff_forall_sublist.mpr fun {a b} sub isGone isKept => ?_)
    have le : key a.1 ≤ key b.1 := List.pairwise_iff_forall_sublist.mp sorted sub
    refine lt_of_le_of_ne le fun sameKey => ?_
    have inFilter : List.Sublist [a.1, b.1] ((marked.map Prod.fst).filter fun c => key c = key b.1) := by
      have filtered := (sub.map Prod.fst).filter fun c => decide (key c = key b.1)
      simp only [List.map_cons, List.map_nil, List.filter_cons, sameKey, decide_true, if_true,
        List.filter_nil] at filtered
      exact filtered
    rw [same, List.filter_append] at inFilter
    have never : (((kept marked).filter fun c => key c = key b.1) ++
        (gone marked).filter fun c => key c = key b.1).Pairwise fun x y => ¬ (x ∈ gone marked ∧ y ∈ kept marked) := by
      refine List.pairwise_append.mpr ⟨List.pairwise_of_forall_mem_list fun x inX y inY both => ?_,
        List.pairwise_of_forall_mem_list fun x inX y inY both => ?_, fun x inX y inY both => ?_⟩
      · exact apart x (List.mem_filter.mp inX).1 both.1
      · exact apart y both.2 (List.mem_filter.mp inY).1
      · exact apart x (List.mem_filter.mp inX).1 both.1
    have inA : a ∈ marked := sub.subset List.mem_cons_self
    have inB : b ∈ marked := sub.subset (List.mem_cons_of_mem a List.mem_cons_self)
    refine List.pairwise_iff_forall_sublist.mp never inFilter ⟨?_, ?_⟩
    · exact List.mem_map_of_mem (List.mem_filter.mpr ⟨inA, isGone⟩)
    · exact List.mem_map_of_mem (List.mem_filter.mpr ⟨inB, by rw [isKept]; rfl⟩)
  · intro ordered
    refine ⟨ordered.imp fun both => both.1, fun k => ?_⟩
    have atEnd : (marked.filter fun entry => key entry.1 = k).Pairwise fun a b => a.2 = true → b.2 = true := by
      refine List.Pairwise.imp_of_mem ?_ (ordered.filter fun entry => decide (key entry.1 = k))
      intro a b inA inB both isGone
      by_contra isKept
      have isA := of_decide_eq_true (List.mem_filter.mp inA).2
      have isB := of_decide_eq_true (List.mem_filter.mp inB).2
      exact absurd (both.2 isGone ((Bool.not_eq_true _).mp isKept)) (by rw [isA, isB]; exact lt_irrefl k)
    rw [List.filter_append, filter_kept, filter_gone, filter_map_fst, kept, gone, ← List.map_append,
      filter_append_filter atEnd]

end

end AgentPark.Lib
