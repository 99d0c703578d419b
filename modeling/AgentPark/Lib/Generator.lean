import Mathlib.Data.List.Basic

/-!
# Generators

`Generator ο ε σ` is the monad of code that yields values of type `ο` while it changes a state and
may raise on the way; what it yielded before it raised has been yielded.

* `Emits m s out a s'` says that `m`, started in `s`, yields `out` and returns `a` in `s'`.  Its
  rules `emits_pure`, `Emits.bind`, `emits_yield` follow the shape of the code.

Nothing here mentions a program.
-/

namespace AgentPark.Lib

/-- Code over the state `σ` that yields values and returns an `α` or raises an `ε`. -/
def Generator (ο ε σ α : Type) : Type := σ → List ο × Except ε (α × σ)

namespace Generator

variable {ο ε σ τ α β ι : Type}

/-- Run `f` on the result unless the code has raised. -/
def bind (m : Generator ο ε σ α) (f : α → Generator ο ε σ β) : Generator ο ε σ β := fun s =>
  match m s with
  | (out, .ok (a, s')) => (out ++ (f a s').1, (f a s').2)
  | (out, .error e) => (out, .error e)

instance : Monad (Generator ο ε σ) where
  pure a := fun s => ([], .ok (a, s))
  bind := bind

theorem bind_pure' (m : Generator ο ε σ α) : Generator.bind m pure = m := by
  funext s
  unfold Generator.bind
  rcases ran : m s with ⟨out, _ | ⟨a, s'⟩⟩
  · rfl
  · exact congrArg₂ Prod.mk (List.append_nil out) rfl

theorem pure_bind' (a : α) (f : α → Generator ο ε σ β) : Generator.bind (pure a) f = f a := by
  funext s
  exact congrArg₂ Prod.mk (List.nil_append _) rfl

theorem bind_assoc' {γ : Type} (m : Generator ο ε σ α) (f : α → Generator ο ε σ β)
    (g : β → Generator ο ε σ γ) :
    Generator.bind (Generator.bind m f) g = Generator.bind m fun a => Generator.bind (f a) g := by
  funext s
  unfold Generator.bind
  rcases m s with ⟨out, _ | ⟨a, s'⟩⟩
  · rfl
  · dsimp only
    rcases f a s' with ⟨more, _ | ⟨b, s''⟩⟩
    · rfl
    · dsimp only
      rw [List.append_assoc]

instance : LawfulMonad (Generator ο ε σ) := LawfulMonad.mk' _ bind_pure' pure_bind' bind_assoc'

def yield (value : ο) : Generator ο ε σ Unit := fun s => ([value], .ok ((), s))

def raise (e : ε) : Generator ο ε σ α := fun _ => ([], .error e)

def get : Generator ο ε σ σ := fun s => ([], .ok (s, s))

def modify (f : σ → σ) : Generator ο ε σ Unit := fun s => ([], .ok ((), f s))

/-- The result of a computation that yields nothing. -/
def ofExcept : Except ε α → Generator ο ε σ α
  | .ok a => pure a
  | .error e => raise e

/-! ### What a piece of code yields -/

/-- The code yields `out` and returns `a` in the state `s'`. -/
def Emits (m : Generator ο ε σ α) (s : σ) (out : List ο) (a : α) (s' : σ) : Prop :=
  m s = (out, .ok (a, s'))

/-- The code yields `out` and raises `e`. -/
def Fails (m : Generator ο ε σ α) (s : σ) (out : List ο) (e : ε) : Prop := m s = (out, .error e)

variable {m : Generator ο ε σ α} {f : α → Generator ο ε σ β} {s s' s'' : σ} {out more : List ο}
  {a : α} {b : β} {e : ε}

theorem emits_pure : Emits (pure a : Generator ο ε σ α) s [] a s := rfl

theorem emits_yield {value : ο} : Emits (yield value : Generator ο ε σ Unit) s [value] () s := rfl

theorem emits_get : Emits (get : Generator ο ε σ σ) s [] s s := rfl

theorem emits_modify {g : σ → σ} : Emits (modify g : Generator ο ε σ Unit) s [] () (g s) := rfl

theorem emits_ofExcept {r : Except ε α} (ok : r = .ok a) :
    Emits (ofExcept r : Generator ο ε σ α) s [] a s := by
  rw [ok]
  exact emits_pure

theorem Emits.bind (first : Emits m s out a s') (second : Emits (f a) s' more b s'') :
    Emits (m >>= f) s (out ++ more) b s'' := by
  change Generator.bind m f s = _
  unfold Generator.bind
  rw [Emits] at first second
  rw [first]
  dsimp only
  rw [second]

theorem Emits.then (first : Emits m s [] a s') (second : Emits (f a) s' more b s'') :
    Emits (m >>= f) s more b s'' := by
  have both := first.bind second
  rwa [List.nil_append] at both

theorem Emits.unique {a' : α} (one : Emits m s out a s') (other : Emits m s more a' s'') :
    out = more ∧ a = a' ∧ s' = s'' := by
  rw [Emits, one] at other
  obtain ⟨sameOut, sameResult⟩ := Prod.mk.inj other
  obtain ⟨sameValue, sameState⟩ := Prod.mk.inj (Except.ok.inj sameResult)
  exact ⟨sameOut, sameValue, sameState⟩

theorem emits_bind_iff :
    Emits (m >>= f) s out b s'' ↔
      ∃ first a s' second, out = first ++ second ∧ Emits m s first a s' ∧
        Emits (f a) s' second b s'' := by
  constructor
  · intro both
    change Generator.bind m f s = _ at both
    unfold Generator.bind at both
    split at both
    · rename_i first a s' ran
      obtain ⟨sameOut, sameResult⟩ := Prod.mk.inj both
      exact ⟨first, a, s', _, sameOut.symm, ran, Prod.ext rfl sameResult⟩
    · cases both
  · rintro ⟨first, a, s', second, rfl, here, later⟩
    exact here.bind later

theorem Fails.bind (failed : Fails m s out e) : Fails (m >>= f) s out e := by
  change Generator.bind m f s = _
  unfold Generator.bind
  rw [Fails] at failed
  rw [failed]

theorem Emits.bind_fails (first : Emits m s out a s') (second : Fails (f a) s' more e) :
    Fails (m >>= f) s (out ++ more) e := by
  change Generator.bind m f s = _
  unfold Generator.bind
  rw [Emits] at first
  rw [Fails] at second
  rw [first]
  dsimp only
  rw [second]

theorem emits_or_fails (m : Generator ο ε σ α) (s : σ) :
    (∃ out a s', Emits m s out a s') ∨ ∃ out e, Fails m s out e := by
  cases ran : m s with
  | mk out result =>
    cases result with
    | ok next => exact .inl ⟨out, next.1, next.2, ran⟩
    | error e => exact .inr ⟨out, e, ran⟩

theorem Emits.not_fails (emits : Emits m s out a s') : ¬ Fails m s more e := by
  intro failed
  rw [Fails, emits] at failed
  cases failed

theorem fails_of_bind {first : List ο} (here : Emits m s first a s')
    (both : Fails (m >>= f) s out e) : ∃ later, out = first ++ later ∧ Fails (f a) s' later e := by
  rcases emits_or_fails (f a) s' with ⟨later, b, t, returned⟩ | ⟨later, err, raised⟩
  · exact absurd both (here.bind returned).not_fails
  · have whole := here.bind_fails raised
    rw [Fails, both] at whole
    obtain ⟨sameOut, sameError⟩ := Prod.mk.inj whole
    cases sameError
    exact ⟨later, sameOut, raised⟩

/-! ### Loops over the input -/

/-- How a round of a loop ends. -/
inductive Flow where
  | next
  | stop
deriving DecidableEq

/-- `for x in xs: body`, where the body may return from the generator. -/
def loop (body : ι → Generator ο ε σ Flow) : List ι → Generator ο ε σ Flow
  | [] => pure .next
  | x :: xs => do
    match ← body x with
    | .next => loop body xs
    | .stop => pure .stop

variable {body : ι → Generator ο ε σ Flow} {x : ι} {xs ys : List ι} {flow : Flow}

theorem loop_nil : Emits (loop body []) s [] .next s := emits_pure

theorem loop_cons (here : Emits (body x) s out .next s')
    (later : Emits (loop body xs) s' more flow s'') :
    Emits (loop body (x :: xs)) s (out ++ more) flow s'' := here.bind later

theorem loop_append (front : Emits (loop body xs) s out .next s')
    (back : Emits (loop body ys) s' more flow s'') :
    Emits (loop body (xs ++ ys)) s (out ++ more) flow s'' := by
  induction xs generalizing s out with
  | nil =>
    obtain ⟨rfl, -, rfl⟩ := front.unique loop_nil
    exact back
  | cons x xs ih =>
    rw [List.cons_append]
    obtain ⟨first, turn, t, second, rfl, here, later⟩ := emits_bind_iff.mp front
    cases turn with
    | next =>
      rw [List.append_assoc]
      exact loop_cons here (ih later)
    | stop => cases (later.unique emits_pure).2.1

theorem loop_cons_fails (here : Fails (body x) s out e) :
    Fails (loop body (x :: xs)) s out e := here.bind

theorem loop_append_fails (front : Fails (loop body xs) s out e) :
    Fails (loop body (xs ++ ys)) s out e := by
  induction xs generalizing s out with
  | nil => exact absurd front loop_nil.not_fails
  | cons x xs ih =>
    rw [List.cons_append]
    rcases emits_or_fails (body x) s with ⟨first, flow, t, here⟩ | ⟨first, err, here⟩
    · obtain ⟨later, same⟩ := fails_of_bind here front
      rw [same.1]
      cases flow with
      | next => exact here.bind_fails (ih same.2)
      | stop => exact absurd same.2 emits_pure.not_fails
    · have both : Fails (loop body (x :: xs)) s _ _ := loop_cons_fails here
      rw [Fails, front] at both
      cases both
      exact loop_cons_fails here

theorem loop_append_then_fails (front : Emits (loop body xs) s out .next s')
    (back : Fails (loop body ys) s' more e) : Fails (loop body (xs ++ ys)) s (out ++ more) e := by
  induction xs generalizing s out with
  | nil =>
    obtain ⟨rfl, -, rfl⟩ := front.unique loop_nil
    exact back
  | cons x xs ih =>
    rw [List.cons_append]
    obtain ⟨first, turn, t, second, rfl, here, later⟩ := emits_bind_iff.mp front
    cases turn with
    | next =>
      rw [List.append_assoc]
      exact here.bind_fails (ih later)
    | stop => cases (later.unique emits_pure).2.1

/-- A generator that reads a source to its end.  The source may raise when its items are used up; a
round that returns ends the generator. -/
def drain (body : ι → Generator ο ε σ Flow) (finish : Generator ο ε σ Unit)
    (source : List ι × Option ε) : Generator ο ε σ Unit := do
  match ← loop body source.1 with
  | .stop => pure ()
  | .next =>
    match source.2 with
    | some e => raise e
    | none => finish

theorem emits_drain {finish : Generator ο ε σ Unit} (rounds : Emits (loop body xs) s out .next s')
    (ending : Emits finish s' more () s'') :
    Emits (drain body finish (xs, none)) s (out ++ more) () s'' := rounds.bind ending

theorem fails_drain {finish : Generator ο ε σ Unit} {broken : Option ε}
    (rounds : Fails (loop body xs) s out e) : Fails (drain body finish (xs, broken)) s out e :=
  rounds.bind

/-! ### What the consumer sees -/

/-- The values of a generator and the error it raised, if it raised one. -/
def Run (m : Generator ο ε σ α) (s : σ) : List ο × Option ε :=
  match m s with
  | (out, .ok _) => (out, none)
  | (out, .error e) => (out, some e)

theorem run_of_emits (emits : Emits m s out a s') : Run m s = (out, none) := by
  unfold Run
  rw [Emits] at emits
  rw [emits]

theorem run_of_fails (failed : Fails m s out e) : Run m s = (out, some e) := by
  unfold Run
  rw [Fails] at failed
  rw [failed]

end Generator

end AgentPark.Lib
