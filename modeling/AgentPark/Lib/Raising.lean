import AgentPark.Lib.Outcome

/-!
# Code that acts and may raise

`Raising ε σ` is the monad of code that changes a state step by step and may raise on the way; what
it did before it raised stays done.

* `Raising.wp` is the weakest precondition with a postcondition for either end, with its rules
  (`wp_pure`, `wp_bind`, `wp_mono`, `wp_attempt`, `wp_forM`).

Nothing here mentions a program.
-/

namespace AgentPark.Lib

/-- Code over the state `σ` that returns an `α` or raises an `ε`. -/
def Raising (ε σ α : Type) : Type := σ → Except ε α × σ

namespace Raising

variable {ε σ α β : Type}

/-- Run `f` on the result unless the code has raised. -/
def bind (m : Raising ε σ α) (f : α → Raising ε σ β) : Raising ε σ β := fun s =>
  match m s with
  | (.ok a, s') => f a s'
  | (.error e, s') => (.error e, s')

instance : Monad (Raising ε σ) where
  pure a := fun s => (.ok a, s)
  bind := bind

/-- One step: it raises and leaves the state as it is, or it returns and changes the state. -/
def attempt (f : σ → Except ε (α × σ)) : Raising ε σ α := fun s =>
  match f s with
  | .ok (a, s') => (.ok a, s')
  | .error e => (.error e, s)

/-- The states from which the code returns in `Q` or raises in `E`. -/
def wp (m : Raising ε σ α) (Q : α → σ → Prop) (E : ε → σ → Prop) (s : σ) : Prop :=
  match m s with
  | (.ok a, s') => Q a s'
  | (.error e, s') => E e s'

variable {m : Raising ε σ α} {Q R : α → σ → Prop} {E F : ε → σ → Prop} {s s' : σ}

theorem wp_pure {a : α} : wp (pure a) Q E s ↔ Q a s := Iff.rfl

theorem wp_bind {f : α → Raising ε σ β} {Q : β → σ → Prop} :
    wp (m >>= f) Q E s ↔ wp m (fun a => wp (f a) Q E) E s := by
  change wp (bind m f) Q E s ↔ _
  unfold wp bind
  cases m s with
  | mk result t =>
    cases result with
    | ok a => exact Iff.rfl
    | error e => exact Iff.rfl

theorem wp_mono (holds : wp m Q E s) (returned : ∀ a t, Q a t → R a t)
    (raised : ∀ e t, E e t → F e t) : wp m R F s := by
  unfold wp at holds ⊢
  split at holds
  · exact returned _ _ holds
  · exact raised _ _ holds

theorem wp_attempt {f : σ → Except ε (α × σ)} (raised : ∀ e, f s = .error e → E e s)
    (returned : ∀ a s', f s = .ok (a, s') → Q a s') : wp (attempt f) Q E s := by
  unfold wp attempt
  cases result : f s with
  | error e => exact raised e result
  | ok next => exact returned next.1 next.2 result

theorem wp_error {e : ε} (holds : wp m Q E s) (ran : m s = (.error e, s')) : E e s' := by
  unfold wp at holds
  rwa [ran] at holds

theorem wp_forM {items : List β} {body : β → Raising ε σ Unit} {I : σ → Prop}
    (round : ∀ item ∈ items, ∀ s, I s → wp (body item) (fun _ => I) E s) (start : I s) :
    wp (items.forM body) (fun _ => I) E s := by
  induction items generalizing s with
  | nil => exact start
  | cons item items ih =>
    obtain ⟨here, later⟩ := List.forall_mem_cons.mp round
    apply wp_bind.mpr
    exact wp_mono (here s start) (fun _ t kept => ih later kept) fun _ _ raised => raised

end Raising

/-! ### Undoing -/

section Undo

variable {ι ε σ : Type}

/-- Run the operations of an undo one after the other.  One that raises is noted and skipped. -/
def undoAll : List (ι × (σ → Except ε σ)) → σ → List (ι × ε) × σ
  | [], s => ([], s)
  | (label, operation) :: rest, s =>
    match operation s with
    | .ok s' => undoAll rest s'
    | .error e =>
      let (errors, t) := undoAll rest s
      ((label, e) :: errors, t)

/-- Run the operations one after the other up to the first that raises. -/
def undoInOrder : List (ι × (σ → Except ε σ)) → σ → Except ε σ
  | [], s => .ok s
  | (_, operation) :: rest, s => operation s >>= undoInOrder rest

theorem undoInOrder_append (front back : List (ι × (σ → Except ε σ))) (s : σ) :
    undoInOrder (front ++ back) s = undoInOrder front s >>= undoInOrder back := by
  induction front generalizing s with
  | nil => rfl
  | cons entry front ih =>
    rw [List.cons_append, undoInOrder, undoInOrder, bind_assoc]
    exact bind_congr ih

theorem undoInOrder_if {c : Prop} [Decidable c] {entry : ι × (σ → Except ε σ)}
    {rest : List (ι × (σ → Except ε σ))} {s t : σ}
    (ran : undoInOrder ((if c then [entry] else []) ++ rest) s = .ok t) :
    ∃ middle, (if c then entry.2 s = .ok middle else middle = s) ∧
      undoInOrder rest middle = .ok t := by
  by_cases holds : c
  · rw [if_pos holds, List.singleton_append, undoInOrder] at ran
    obtain ⟨middle, here, later⟩ := bind_eq_ok.mp ran
    exact ⟨middle, by rwa [if_pos holds], later⟩
  · rw [if_neg holds, List.nil_append] at ran
    exact ⟨s, by rw [if_neg holds], ran⟩

/-- What the undo did when no operation raised. -/
theorem undoAll_clean {operations : List (ι × (σ → Except ε σ))} {s : σ}
    (clean : (undoAll operations s).1 = []) :
    undoInOrder operations s = .ok (undoAll operations s).2 := by
  induction operations generalizing s with
  | nil => rfl
  | cons entry rest ih =>
    obtain ⟨label, operation⟩ := entry
    unfold undoAll at clean ⊢
    rw [undoInOrder]
    cases ran : operation s with
    | ok s' =>
      rw [ran] at clean
      exact ih clean
    | error e =>
      rw [ran] at clean
      cases clean

end Undo

end AgentPark.Lib
