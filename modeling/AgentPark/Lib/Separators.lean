import Mathlib.Data.List.Basic

/-!
# Parts with a separator between them
-/

namespace AgentPark.Lib

variable {α : Type*} {sep : α} {xs ys ds es m : List α}

/-- A list is cut at the last of its separators in one way. -/
theorem append_sep_inj (free : sep ∉ ds) (free' : sep ∉ es) (same : xs ++ sep :: ds = ys ++ sep :: es) :
    xs = ys ∧ ds = es := by
  rcases List.append_eq_append_iff.mp same with ⟨rest, isY, cut⟩ | ⟨rest, isX, cut⟩
  · cases rest with
    | nil => exact ⟨by rw [isY, List.append_nil], (List.cons.inj cut).2⟩
    | cons x rest => exact absurd ((List.cons.inj cut).2 ▸ by simp) free
  · cases rest with
    | nil => exact ⟨by rw [isX, List.append_nil], (List.cons.inj cut).2.symm⟩
    | cons x rest => exact absurd ((List.cons.inj cut).2 ▸ by simp) free'

/-- A list is cut at the first of its separators in one way. -/
theorem sep_append_inj (free : sep ∉ ds) (free' : sep ∉ es) (same : ds ++ sep :: xs = es ++ sep :: ys) :
    ds = es ∧ xs = ys := by
  rcases List.append_eq_append_iff.mp same with ⟨rest, isE, cut⟩ | ⟨rest, isD, cut⟩
  · cases rest with
    | nil => exact ⟨by rw [isE, List.append_nil], (List.cons.inj cut).2⟩
    | cons x rest =>
      rw [isE, ← (List.cons.inj cut).1] at free'
      exact absurd (by simp) free'
  · cases rest with
    | nil => exact ⟨by rw [isD, List.append_nil], (List.cons.inj cut).2.symm⟩
    | cons x rest =>
      rw [isD, ← (List.cons.inj cut).1] at free
      exact absurd (by simp) free

theorem cut_behind {t t' : List α} (free : sep ∉ ds) (free' : sep ∉ es)
    (same : sep :: (ds ++ sep :: t) = xs ++ sep :: (es ++ sep :: t')) :
    xs = [] ∧ ds = es ∧ t = t' ∨ ∃ m, xs = sep :: (ds ++ m) ∧ sep :: t = m ++ sep :: (es ++ sep :: t') := by
  cases xs with
  | nil => exact .inl ⟨rfl, sep_append_inj free free' (List.cons.inj same).2⟩
  | cons x rest =>
    obtain ⟨isSep, same⟩ := List.cons.inj same
    rw [← isSep]
    rcases List.append_eq_append_iff.mp same with ⟨m, isRest, cut⟩ | ⟨m, isD, cut⟩
    · exact .inr ⟨m, by rw [isRest], cut⟩
    · cases m with
      | nil =>
        rw [List.append_nil] at isD
        exact .inr ⟨[], by rw [isD, List.append_nil], cut.symm⟩
      | cons y m =>
        rw [isD, ← (List.cons.inj cut).1] at free
        exact absurd (by simp) free

/-- How two cuts of a list into three parts, the middle one free of separators, are related. -/
theorem separated_eq_iff {s s' t t' : List α} (free : sep ∉ ds) (free' : sep ∉ es) :
    s ++ sep :: (ds ++ sep :: t) = s' ++ sep :: (es ++ sep :: t') ↔
      s = s' ∧ ds = es ∧ t = t' ∨
      (∃ m, s' = s ++ sep :: (ds ++ m) ∧ sep :: t = m ++ sep :: (es ++ sep :: t')) ∨
      (∃ m, s = s' ++ sep :: (es ++ m) ∧ sep :: t' = m ++ sep :: (ds ++ sep :: t)) := by
  constructor
  · intro same
    rcases List.append_eq_append_iff.mp same with ⟨rest, isS', cut⟩ | ⟨rest, isS, cut⟩
    · rcases cut_behind free free' cut with ⟨empty, isD, isT⟩ | ⟨m, isRest, isT⟩
      · exact .inl ⟨by rw [isS', empty, List.append_nil], isD, isT⟩
      · exact .inr (.inl ⟨m, by rw [isS', isRest], isT⟩)
    · rcases cut_behind free' free cut with ⟨empty, isE, isT⟩ | ⟨m, isRest, isT⟩
      · exact .inl ⟨by rw [isS, empty, List.append_nil], isE.symm, isT.symm⟩
      · exact .inr (.inr ⟨m, by rw [isS, isRest], isT⟩)
  · rintro (⟨rfl, rfl, rfl⟩ | ⟨m, rfl, cut⟩ | ⟨m, rfl, cut⟩)
    · rfl
    · rw [cut]
      simp
    · rw [cut]
      simp

end AgentPark.Lib
