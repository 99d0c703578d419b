import Mathlib.Data.List.Forall2

/-!
# Programs that may raise

`Except ε` is the monad of code that may raise; these rules take a result apart.

Nothing here mentions a program.
-/

namespace AgentPark.Lib

variable {ε : Type*} {α β : Type}

variable {x : Except ε α} {b : β}

/-- A program in two parts returns when both parts do. -/
theorem bind_eq_ok {f : α → Except ε β} :
    x >>= f = .ok b ↔ ∃ a, x = .ok a ∧ f a = .ok b := by
  cases x with
  | error e => exact ⟨nofun, fun ⟨_, absurd, _⟩ => nomatch absurd⟩
  | ok a =>
    constructor
    · intro ran
      exact ⟨a, rfl, ran⟩
    · rintro ⟨_, ⟨⟩, ran⟩
      exact ran

variable {e : ε}

theorem bind_eq_error {f : α → Except ε β} :
    x >>= f = .error e ↔ x = .error e ∨ ∃ a, x = .ok a ∧ f a = .error e := by
  cases x with
  | error e' =>
    constructor
    · rintro ⟨⟩
      exact .inl rfl
    · rintro (⟨⟨⟩⟩ | ⟨_, absurd, _⟩)
      · rfl
      · cases absurd
  | ok a =>
    constructor
    · intro ran
      exact .inr ⟨a, rfl, ran⟩
    · rintro (absurd | ⟨_, ⟨⟩, ran⟩)
      · cases absurd
      · exact ran

/-- The same for a mapped result. -/
theorem map_eq_ok {f : α → β} :
    x.map f = .ok b ↔ ∃ a, x = .ok a ∧ f a = b := by
  cases x with
  | error e => exact ⟨nofun, fun ⟨_, absurd, _⟩ => nomatch absurd⟩
  | ok a =>
    constructor
    · rintro ⟨⟩
      exact ⟨a, rfl, rfl⟩
    · rintro ⟨_, ⟨⟩, rfl⟩
      rfl

/-- A check that raises when `c` holds. -/
theorem ite_error_eq_ok {c : Prop} [Decidable c] {a : α} :
    (if c then .error e else x) = .ok a ↔ ¬ c ∧ x = .ok a := by
  by_cases holds : c
  · rw [if_pos holds]
    exact ⟨nofun, fun both => absurd holds both.1⟩
  · rw [if_neg holds]
    exact ⟨fun ran => ⟨holds, ran⟩, fun both => both.2⟩

/-- Raise unless `c` holds. -/
def require (c : Prop) [Decidable c] (e : ε) : Except ε Unit := if c then .ok () else .error e

theorem require_eq_ok {c : Prop} [Decidable c] {u : Unit} : require c e = .ok u ↔ c := by
  rw [require]
  by_cases holds : c
  · rw [if_pos holds]
    exact ⟨fun _ => holds, fun _ => rfl⟩
  · rw [if_neg holds]
    exact ⟨nofun, fun now => absurd now holds⟩

/-- Take a check off a program. -/
theorem require_bind_eq_ok {c : Prop} [Decidable c] {f : Unit → Except ε β} :
    (require c e >>= f) = .ok b ↔ c ∧ f () = .ok b := by
  rw [bind_eq_ok]
  constructor
  · rintro ⟨u, checked, ran⟩
    exact ⟨require_eq_ok.mp checked, ran⟩
  · intro both
    exact ⟨(), require_eq_ok.mpr both.1, both.2⟩

/-! ### Loops -/

section
variable {f g : β → α → Except ε β} {P : β → Prop} {items : List α} {init final : β}

/-- What a loop that may raise keeps. -/
theorem foldlM_induct (step : ∀ before, ∀ item ∈ items, ∀ after, P before →
    f before item = .ok after → P after) (holds : P init) (ran : items.foldlM f init = .ok final) :
    P final := by
  induction items generalizing init with
  | nil =>
    cases ran
    exact holds
  | cons item items ih =>
    obtain ⟨next, first, later⟩ := bind_eq_ok.mp ran
    exact ih (fun before other mem => step before other (List.mem_cons_of_mem item mem))
      (step init item List.mem_cons_self next holds first) later

/-- What a laxer loop accepts. -/
theorem foldlM_mono (mono : ∀ before, ∀ item ∈ items, ∀ after, f before item = .ok after →
    g before item = .ok after) (ran : items.foldlM f init = .ok final) :
    items.foldlM g init = .ok final := by
  induction items generalizing init with
  | nil => exact ran
  | cons item items ih =>
    obtain ⟨next, first, later⟩ := bind_eq_ok.mp ran
    exact bind_eq_ok.mpr ⟨next, mono init item List.mem_cons_self next first,
      ih (fun before other mem => mono before other (List.mem_cons_of_mem item mem)) later⟩

/-- A loop that does not raise. -/
theorem foldlM_of_ok {step : β → α → β} (each : ∀ before, ∀ item ∈ items, f before item = .ok (step before item))
    (init : β) : items.foldlM f init = .ok (items.foldl step init) := by
  induction items generalizing init with
  | nil => rfl
  | cons item items ih =>
    have later : ∀ before, ∀ item ∈ items, f before item = .ok (step before item) := fun before other mem =>
      each before other (List.mem_cons_of_mem item mem)
    exact bind_eq_ok.mpr ⟨step init item, each init item List.mem_cons_self, ih later (step init item)⟩

theorem foldlM_congr (same : ∀ before, ∀ item ∈ items, f before item = g before item) (init : β) :
    items.foldlM f init = items.foldlM g init := by
  induction items generalizing init with
  | nil => rfl
  | cons item items ih =>
    rw [List.foldlM_cons, List.foldlM_cons, same init item List.mem_cons_self]
    exact congrArg _ (funext fun next => ih (fun before other mem =>
      same before other (List.mem_cons_of_mem item mem)) next)

end

variable {f : α → Except ε β} {items : List α}

/-- A loop over a list that does not raise. -/
theorem mapM_of_ok {g : α → β} (each : ∀ item ∈ items, f item = .ok (g item)) :
    items.mapM f = .ok (items.map g) := by
  induction items with
  | nil => rfl
  | cons item items ih =>
    obtain ⟨first, later⟩ := List.forall_mem_cons.mp each
    rw [List.mapM_cons, first, ih later]
    rfl

variable {results : List β}

/-- A loop over a list of which every turn gives `g` or raises. -/
theorem mapM_eq_ok {g : α → β} {P : β → Prop}
    (each : ∀ item result, f item = .ok result ↔ result = g item ∧ P result) :
    items.mapM f = .ok results ↔ results = items.map g ∧ ∀ result ∈ results, P result := by
  induction items generalizing results with
  | nil =>
    rw [List.mapM_nil, List.map_nil]
    constructor
    · intro ran
      cases ran
      exact ⟨rfl, by simp⟩
    · intro both
      rw [both.1]
      rfl
  | cons item items ih =>
    rw [List.mapM_cons, List.map_cons]
    simp only [bind_eq_ok, each, ih]
    constructor
    · rintro ⟨first, ⟨isFirst, holds⟩, later, ⟨isLater, all⟩, same⟩
      cases same
      rw [isFirst, isLater] at *
      exact ⟨rfl, List.forall_mem_cons.mpr ⟨holds, all⟩⟩
    · rintro ⟨rfl, all⟩
      obtain ⟨holds, all⟩ := List.forall_mem_cons.mp all
      exact ⟨g item, ⟨rfl, holds⟩, items.map g, ⟨rfl, all⟩, rfl⟩

/-- A loop that reads every item has one result for each. -/
theorem forall₂_of_mapM (ran : items.mapM f = .ok results) :
    List.Forall₂ (fun item result => f item = .ok result) items results := by
  induction items generalizing results with
  | nil =>
    cases ran
    exact .nil
  | cons item items ih =>
    rw [List.mapM_cons] at ran
    obtain ⟨first, isFirst, ran⟩ := bind_eq_ok.mp ran
    obtain ⟨later, isLater, same⟩ := bind_eq_ok.mp ran
    cases same
    exact .cons isFirst (ih isLater)

theorem mem_of_mapM (ran : items.mapM f = .ok results) {result : β} (mem : result ∈ results) :
    ∃ item ∈ items, f item = .ok result := by
  obtain ⟨i, inside, rfl⟩ := List.getElem_of_mem mem
  have both := forall₂_of_mapM ran
  have inItems : i < items.length := both.length_eq ▸ inside
  exact ⟨items[i], List.getElem_mem inItems, both.get inItems inside⟩

theorem ok_of_mapM (ran : items.mapM f = .ok results) {item : α} (mem : item ∈ items) :
    ∃ result, f item = .ok result := by
  obtain ⟨i, inside, rfl⟩ := List.getElem_of_mem mem
  have both := forall₂_of_mapM ran
  exact ⟨results.get ⟨i, both.length_eq ▸ inside⟩, both.get inside _⟩

theorem flatMap_of_mapM {γ : Type*} {g : β → List γ} {h : α → List γ}
    (keeps : ∀ item result, item ∈ items → f item = .ok result → g result = h item)
    (ran : items.mapM f = .ok results) : results.flatMap g = items.flatMap h := by
  induction items generalizing results with
  | nil =>
    cases ran
    rfl
  | cons item items ih =>
    rw [List.mapM_cons] at ran
    obtain ⟨first, isFirst, ran⟩ := bind_eq_ok.mp ran
    obtain ⟨later, isLater, same⟩ := bind_eq_ok.mp ran
    cases same
    rw [List.flatMap_cons, List.flatMap_cons, keeps item first List.mem_cons_self isFirst,
      ih (fun other result mem => keeps other result (List.mem_cons_of_mem _ mem)) isLater]

end AgentPark.Lib
