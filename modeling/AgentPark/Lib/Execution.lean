import Mathlib.Logic.Basic

/-!
# Executions of a guarded step function

A system is a function `step : σ → α → Option σ`: `step s a` is the state after the action `a`, and
`none` when `a` is not enabled in `s`.  One definition serves the replay of a concrete schedule
(`run`) and the proofs about every schedule.

* `run step s as` performs the actions `as` in order.
* `Along step P s as` says that every step of that run satisfies the step property `P`.

Nothing here mentions a program.
-/

namespace AgentPark.Lib

variable {σ α : Type*}

/-- Perform the actions in order; `none` when one of them is not enabled. -/
def run (step : σ → α → Option σ) : σ → List α → Option σ
  | s, [] => some s
  | s, a :: as => (step s a).bind fun s' => run step s' as

/-- Every step of the run from `s` over the actions satisfies `P`.  Actions behind one that is not
enabled are not performed, so nothing is asked of them. -/
def Along (step : σ → α → Option σ) (P : σ → α → σ → Prop) : σ → List α → Prop
  | _, [] => True
  | s, a :: as => ∀ s', step s a = some s' → P s a s' ∧ Along step P s' as

variable {step : σ → α → Option σ} {C P Q : σ → α → σ → Prop} {I : σ → Prop}

@[simp] theorem run_nil (s : σ) : run step s [] = some s := rfl

theorem run_cons (s : σ) (a : α) (as : List α) :
    run step s (a :: as) = (step s a).bind fun s' => run step s' as := rfl

/-- A run that starts with `a` performs `a` and then the rest. -/
theorem run_cons_eq_some {s t : σ} {a : α} {as : List α} :
    run step s (a :: as) = some t ↔ ∃ s', step s a = some s' ∧ run step s' as = some t := by
  rw [run_cons, Option.bind_eq_some_iff]

theorem run_append {as bs : List α} {s t : σ} :
    run step s (as ++ bs) = some t ↔ ∃ m, run step s as = some m ∧ run step m bs = some t := by
  induction as generalizing s with
  | nil => simp
  | cons a as ih =>
    rw [List.cons_append, run_cons_eq_some]
    constructor
    · rintro ⟨s', first, rest⟩
      obtain ⟨m, left, right⟩ := ih.mp rest
      exact ⟨m, run_cons_eq_some.mpr ⟨s', first, left⟩, right⟩
    · rintro ⟨m, left, right⟩
      obtain ⟨s', first, rest⟩ := run_cons_eq_some.mp left
      exact ⟨s', first, ih.mpr ⟨m, rest, right⟩⟩

@[simp] theorem along_nil (s : σ) : Along step P s [] := trivial

theorem along_cons {s : σ} {a : α} {as : List α} :
    Along step P s (a :: as) ↔ ∀ s', step s a = some s' → P s a s' ∧ Along step P s' as := Iff.rfl

theorem along_step {s s' : σ} {a : α} {as : List α} (stepped : step s a = some s') (holds : P s a s')
    (rest : Along step P s' as) : Along step P s (a :: as) := by
  intro t same
  cases stepped.symm.trans same
  exact ⟨holds, rest⟩

/-- Whether every step of a run has a property can be computed. -/
instance decidableAlong [∀ s a s', Decidable (P s a s')] :
    (s : σ) → (as : List α) → Decidable (Along step P s as)
  | s, [] => isTrue (along_nil s)
  | s, a :: as =>
    match enabled : step s a with
    | none => isTrue fun s' isNext => by
      rw [enabled] at isNext
      cases isNext
    | some s' =>
      have := decidableAlong s' as
      decidable_of_iff (P s a s' ∧ Along step P s' as) (by
        rw [along_cons, enabled]
        constructor
        · rintro holds _ ⟨⟩
          exact holds
        · intro holds
          exact holds s' rfl)

theorem Along.mono (le : ∀ s a s', P s a s' → Q s a s') {s : σ} {as : List α}
    (along : Along step P s as) : Along step Q s as := by
  induction as generalizing s with
  | nil => exact along_nil s
  | cons a as ih =>
    intro s' enabled
    obtain ⟨here, rest⟩ := along s' enabled
    exact ⟨le s a s' here, ih rest⟩

theorem along_of_forall_mem {p : α → Prop} {s : σ} {as : List α} (all : ∀ a ∈ as, p a) :
    Along step (fun _ a _ => p a) s as := by
  induction as generalizing s with
  | nil => exact along_nil s
  | cons a as ih =>
    intro s' _
    exact ⟨all a List.mem_cons_self, ih fun b mem => all b (List.mem_cons_of_mem a mem)⟩

theorem Along.and {s : σ} {as : List α} (left : Along step P s as) (right : Along step Q s as) :
    Along step (fun s a s' => P s a s' ∧ Q s a s') s as := by
  induction as generalizing s with
  | nil => exact along_nil s
  | cons a as ih =>
    intro s' enabled
    obtain ⟨holdsLeft, restLeft⟩ := left s' enabled
    obtain ⟨holdsRight, restRight⟩ := right s' enabled
    exact ⟨⟨holdsLeft, holdsRight⟩, ih restLeft restRight⟩

theorem Along.append {as bs : List α} {s t : σ} (along : Along step P s (as ++ bs))
    (left : run step s as = some t) : Along step P s as ∧ Along step P t bs := by
  induction as generalizing s with
  | nil =>
    cases left
    exact ⟨along_nil _, along⟩
  | cons a as ih =>
    obtain ⟨s', first, rest⟩ := run_cons_eq_some.mp left
    obtain ⟨here, later⟩ := along s' first
    obtain ⟨front, back⟩ := ih later rest
    refine ⟨fun s'' enabled => ?_, back⟩
    cases first.symm.trans enabled
    exact ⟨here, front⟩

theorem along_append {as bs : List α} {s : σ} (left : Along step P s as)
    (right : ∀ m, run step s as = some m → Along step P m bs) : Along step P s (as ++ bs) := by
  induction as generalizing s with
  | nil => exact right s rfl
  | cons a as ih =>
    intro s' enabled
    obtain ⟨here, rest⟩ := left s' enabled
    exact ⟨here, ih rest fun m ran => right m (run_cons_eq_some.mpr ⟨s', enabled, ran⟩)⟩

theorem Along.last {as : List α} {a : α} {s m t : σ} (along : Along step P s (as ++ [a]))
    (left : run step s as = some m) (final : step m a = some t) : P m a t :=
  ((along.append left).2 t final).1

/-- An invariant carried by every step is carried by every run. -/
theorem run_invariant (keep : ∀ s a s', I s → step s a = some s' → I s') {s t : σ} {as : List α}
    (start : I s) (ran : run step s as = some t) : I t := by
  induction as generalizing s with
  | nil =>
    cases ran
    exact start
  | cons a as ih =>
    obtain ⟨s', first, rest⟩ := run_cons_eq_some.mp ran
    exact ih (keep s a s' start first) rest

/-- An invariant carried by every step that meets a condition is carried by every run whose steps
all meet it. -/
theorem run_invariant_along (keep : ∀ s a s', I s → step s a = some s' → C s a s' → I s')
    {s t : σ} {as : List α} (start : I s) (along : Along step C s as)
    (ran : run step s as = some t) : I t := by
  induction as generalizing s with
  | nil =>
    cases ran
    exact start
  | cons a as ih =>
    obtain ⟨s', first, rest⟩ := run_cons_eq_some.mp ran
    obtain ⟨here, later⟩ := along s' first
    exact ih (keep s a s' start first here) later rest

/-- In every run whose steps meet `C`, the steps have the property the step lemma gives. -/
theorem along_of_invariant
    (keep : ∀ s a s', I s → step s a = some s' → C s a s' → P s a s' ∧ I s')
    {s : σ} {as : List α} (start : I s) (along : Along step C s as) : Along step P s as := by
  induction as generalizing s with
  | nil => exact along_nil s
  | cons a as ih =>
    intro s' enabled
    obtain ⟨here, later⟩ := along s' enabled
    obtain ⟨property, kept⟩ := keep s a s' start enabled here
    exact ⟨property, ih kept later⟩

/-- A run has the property `P` at all its steps exactly when it meets `C` at all its steps, when
under an invariant the two agree at each step and `C` keeps the invariant. -/
theorem along_iff_of_invariant
    (agree : ∀ s a s', I s → step s a = some s' → (P s a s' ↔ C s a s'))
    (keep : ∀ s a s', I s → step s a = some s' → C s a s' → I s')
    {s : σ} {as : List α} (start : I s) : Along step P s as ↔ Along step C s as := by
  induction as generalizing s with
  | nil => exact ⟨fun _ => along_nil s, fun _ => along_nil s⟩
  | cons a as ih =>
    constructor
    · intro along s' enabled
      obtain ⟨property, later⟩ := along s' enabled
      have here := (agree s a s' start enabled).mp property
      exact ⟨here, (ih (keep s a s' start enabled here)).mp later⟩
    · intro along s' enabled
      obtain ⟨here, later⟩ := along s' enabled
      exact ⟨(agree s a s' start enabled).mpr here,
        (ih (keep s a s' start enabled here)).mpr later⟩

end AgentPark.Lib
