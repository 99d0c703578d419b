import Mathlib.Logic.Basic

/-!
# Programs that act on a shared state

A program is a tree of atomic actions: it performs an action, gets an answer, and goes on.  What an
action does is given by `perform : σ → (op : Op) → E → Ans op × σ`, where `E` is what the environment
chooses at that step (whether a write fails, what the clock says).

* `Program.exec` runs a program against the choices of the environment.
* `Program.Meets` says that every step of such a run meets a condition.
* `Program.wp` is the weakest precondition over all choices that meet a condition, with its rules
  (`wp_bind`, `wp_mono`, `wp_and`); `wp_exec` reads it off at a run.
* `Program.interrupted` is what a program leaves that is stopped, and `Program.Safe` what holds of every state it
  passes and of its end; `Safe.interrupted` and `Safe.exec` read it off.

Nothing here mentions a program of the repository.
-/

namespace AgentPark.Lib

/-- A program over the actions `Op`, where the action `op` is answered by a value of `Ans op`. -/
inductive Program (Op : Type) (Ans : Op → Type) (α : Type) where
  | done (a : α)
  | act (op : Op) (next : Ans op → Program Op Ans α)

namespace Program

variable {Op : Type} {Ans : Op → Type} {α β : Type}

/-- Run `f` on the result of a program. -/
def bind (p : Program Op Ans α) (f : α → Program Op Ans β) : Program Op Ans β :=
  match p with
  | done a => f a
  | act op next => act op fun answer => bind (next answer) f

instance : Monad (Program Op Ans) where
  pure := done
  bind := bind

/-- The program of one action. -/
def call (op : Op) : Program Op Ans (Ans op) := act op done

@[simp] theorem pure_eq (a : α) : (pure a : Program Op Ans α) = done a := rfl

@[simp] theorem done_bind (a : α) (f : α → Program Op Ans β) : (done a >>= f) = f a := rfl

@[simp] theorem act_bind (op : Op) (next : Ans op → Program Op Ans α) (f : α → Program Op Ans β) :
    (act op next >>= f) = act op fun answer => next answer >>= f := rfl

@[simp] theorem call_bind (op : Op) (f : Ans op → Program Op Ans β) :
    (call op >>= f) = act op f := rfl

section Run

variable {σ E : Type} (perform : σ → (op : Op) → E → Ans op × σ)

/-- Run a program to its end, one choice of the environment for each action; `none` when the
choices do not last or some are left over. -/
def exec : Program Op Ans α → σ → List E → Option (α × σ)
  | done a, s, [] => some (a, s)
  | done _, _, _ :: _ => none
  | act _ _, _, [] => none
  | act op next, s, e :: es =>
    let (answer, s') := perform s op e
    exec (next answer) s' es

/-- Every action of the run meets the condition. -/
def Meets (C : σ → Op → E → Prop) : Program Op Ans α → σ → List E → Prop
  | act op next, s, e :: es =>
    let (answer, s') := perform s op e
    C s op e ∧ Meets C (next answer) s' es
  | _, _, _ => True

/-- The states from which every run whose actions meet the condition ends in `Q`. -/
def wp (C : σ → Op → E → Prop) (Q : α → σ → Prop) : Program Op Ans α → σ → Prop
  | done a, s => Q a s
  | act op next, s => ∀ e, C s op e →
      let (answer, s') := perform s op e
      wp C Q (next answer) s'

variable {perform} {C : σ → Op → E → Prop} {Q R : α → σ → Prop}

variable {s : σ}

@[simp] theorem wp_done {a : α} : wp perform C Q (done a) s ↔ Q a s := Iff.rfl
theorem wp_act {op : Op} {next : Ans op → Program Op Ans α} :
    wp perform C Q (act op next) s ↔ ∀ e, C s op e →
      wp perform C Q (next (perform s op e).1) (perform s op e).2 := Iff.rfl

theorem wp_call {op : Op} {Q : Ans op → σ → Prop} :
    wp perform C Q (call op) s ↔ ∀ e, C s op e → Q (perform s op e).1 (perform s op e).2 := Iff.rfl

variable {p : Program Op Ans α}

theorem wp_bind {f : α → Program Op Ans β} {Q : β → σ → Prop} :
    wp perform C Q (p >>= f) s ↔ wp perform C (fun a s' => wp perform C Q (f a) s') p s := by
  induction p generalizing s with
  | done a => exact Iff.rfl
  | act op next ih =>
    rw [act_bind, wp_act, wp_act]
    exact forall_congr' fun e => imp_congr_right fun _ => ih _

theorem wp_mono (le : ∀ a t, Q a t → R a t) (holds : wp perform C Q p s) : wp perform C R p s := by
  induction p generalizing s with
  | done a => exact le a s holds
  | act op next ih => exact fun e meets => ih _ (holds e meets)

theorem wp_of_forall (always : ∀ a t, Q a t) :
    wp perform C Q p s := by
  induction p generalizing s with
  | done a => exact always a s
  | act op next ih => exact fun e _ => ih _

theorem wp_and (left : wp perform C Q p s) (right : wp perform C R p s) :
    wp perform C (fun a t => Q a t ∧ R a t) p s := by
  induction p generalizing s with
  | done a => exact ⟨left, right⟩
  | act op next ih => exact fun e meets => ih _ (left e meets) (right e meets)

/-- What the precondition says of a run. -/
theorem wp_exec {t : σ} {a : α} {es : List E} (holds : wp perform C Q p s)
    (meets : Meets perform C p s es) (ran : exec perform p s es = some (a, t)) : Q a t := by
  induction p generalizing s es with
  | done b =>
    cases es with
    | nil =>
      cases ran
      exact holds
    | cons e es => cases ran
  | act op next ih =>
    cases es with
    | nil => cases ran
    | cons e es =>
      obtain ⟨here, later⟩ := meets
      exact ih _ (holds e here) later ran

/-- Every program can be run to its end. -/
theorem exists_exec (met : ∀ s op, ∃ e, C s op e) (p : Program Op Ans α) (s : σ) :
    ∃ es a t, Meets perform C p s es ∧ exec perform p s es = some (a, t) := by
  induction p generalizing s with
  | done a => exact ⟨[], a, s, trivial, rfl⟩
  | act op next ih =>
    obtain ⟨e, here⟩ := met s op
    obtain ⟨es, a, t, meets, ran⟩ := ih (perform s op e).1 (perform s op e).2
    exact ⟨e :: es, a, t, ⟨here, meets⟩, ran⟩

theorem meets_true {es : List E} :
    Meets perform (fun _ _ _ => True) p s es := by
  induction p generalizing s es with
  | done a => cases es <;> exact trivial
  | act op next ih =>
    cases es with
    | nil => exact trivial
    | cons e es => exact ⟨trivial, ih _⟩

end Run

/-! ### Programs that are stopped -/

section Stopped

variable {σ E : Type} (perform : σ → (op : Op) → E → Ans op × σ)

/-- What a program leaves that is stopped when the choices are used up. -/
def interrupted : Program Op Ans α → σ → List E → σ
  | act op next, s, e :: es => interrupted (next (perform s op e).1) (perform s op e).2 es
  | _, s, _ => s

/-- Every state that the program passes is in `I`, and what it ends with is in `Q`. -/
def Safe (I : σ → Prop) (Q : α → σ → Prop) : Program Op Ans α → σ → Prop
  | done a, s => I s ∧ Q a s
  | act op next, s => I s ∧ ∀ e, Safe I Q (next (perform s op e).1) (perform s op e).2

/-- The program only performs actions that meet a condition. -/
def Only (P : Op → Prop) : Program Op Ans α → Prop
  | done _ => True
  | act op next => P op ∧ ∀ answer, Only P (next answer)

variable {perform} {I J : σ → Prop} {Q R : α → σ → Prop} {p : Program Op Ans α} {s t : σ} {a : α}

theorem Safe.interrupted (safe : Safe perform I Q p s) (es : List E) : I (interrupted perform p s es) := by
  induction p generalizing s es with
  | done a => exact safe.1
  | act op next ih =>
    cases es with
    | nil => exact safe.1
    | cons e es => exact ih _ (safe.2 e) es

theorem Safe.exec {es : List E} (safe : Safe perform I Q p s) (ran : exec perform p s es = some (a, t)) :
    Q a t := by
  induction p generalizing s es with
  | done b =>
    cases es with
    | nil =>
      cases ran
      exact safe.2
    | cons e es => cases ran
  | act op next ih =>
    cases es with
    | nil => cases ran
    | cons e es => exact ih _ (safe.2 e) ran

theorem Safe.mono (passes : ∀ t, I t → J t) (ends : ∀ a t, I t → Q a t → R a t) (safe : Safe perform I Q p s) :
    Safe perform J R p s := by
  induction p generalizing s with
  | done a => exact ⟨passes s safe.1, ends a s safe.1 safe.2⟩
  | act op next ih => exact ⟨passes s safe.1, fun e => ih _ (safe.2 e)⟩

theorem Safe.bind {f : α → Program Op Ans β} {Q : β → σ → Prop}
    (safe : Safe perform I (fun a t => Safe perform I Q (f a) t) p s) : Safe perform I Q (p >>= f) s := by
  induction p generalizing s with
  | done a => exact safe.2
  | act op next ih => exact ⟨safe.1, fun e => ih _ (safe.2 e)⟩

theorem safe_call_bind {op : Op} {f : Ans op → Program Op Ans β} {Q : β → σ → Prop} (inv : I s)
    (later : ∀ e, Safe perform I Q (f (perform s op e).1) (perform s op e).2) :
    Safe perform I Q (call op >>= f) s := ⟨inv, later⟩

theorem interrupted_of_exec {es : List E} (ran : Program.exec perform p s es = some (a, t)) :
    Program.interrupted perform p s es = t := by
  induction p generalizing s es with
  | done b =>
    cases es with
    | nil =>
      cases ran
      rfl
    | cons e es => cases ran
  | act op next ih =>
    cases es with
    | nil => cases ran
    | cons e es => exact ih _ ran

theorem safe_of_runs (inv : ∀ es, I (Program.interrupted perform p s es))
    (post : ∀ es a t, Program.exec perform p s es = some (a, t) → Q a t) : Safe perform I Q p s := by
  induction p generalizing s with
  | done a => exact ⟨inv [], post [] a s rfl⟩
  | act op next ih => exact ⟨inv [], fun e => ih _ (fun es => inv (e :: es)) fun es => post (e :: es)⟩

theorem Only.safe {P : Op → Prop} (only : Only P p) (keep : ∀ s op e, P op → I s → I (perform s op e).2)
    (inv : I s) : Safe perform I (fun _ => I) p s := by
  induction p generalizing s with
  | done a => exact ⟨inv, inv⟩
  | act op next ih => exact ⟨inv, fun e => ih _ (only.2 _) (keep s op e only.1 inv)⟩

end Stopped

end Program

end AgentPark.Lib
