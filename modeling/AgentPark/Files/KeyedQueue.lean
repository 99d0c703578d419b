import AgentPark.Lib.Execution
import Mathlib.Data.List.Nodup
import Mathlib.Logic.Function.Basic
import Mathlib.Logic.Relation

/-!
# The keyed transaction queue

`KeyedTransactionQueue.run` runs a task under a key.  A thread that finds the queue of the key idle
drains it: it runs its own task and those that other threads have queued, one after the other, while
these wait.  A thread that drains a key already runs a task of this key at once.

* `Own` is the condition on a step under which tasks of a key exclude each other: a call that finds
  its key active is made by a task that the thread came to without running one of another caller.
-/

namespace AgentPark.Files

open Lib

/-- A call of `run`: `key` is canonical, `parent` the task that made it, `queued` whether it went
into the queue of its key.  `outcome` is its result or its exception. -/
structure Task (ρ : Type) where
  key : String
  parent : Option Nat
  queued : Bool
  outcome : Option ρ
deriving DecidableEq

/-- `_QueueState` -/
structure QueueState where
  tasks : List Nat
  running : Bool
deriving DecidableEq

/-- What a thread is doing. -/
inductive Frame where
  | run (task : Nat)
  /-- `_drain`, for a call whose own task is in the queue too. -/
  | drain (key : String) (own : Nat)
  | wait (task : Nat)
deriving DecidableEq

/-- The queues and the stacks of the threads, the latest frame first.  `started` and `returned` only
watch: the tasks in the order of their begins, and what the calls came to. -/
structure Threads (ρ : Type) where
  tasks : List (Task ρ)
  states : String → Option QueueState
  frames : Nat → List Frame
  started : List Nat
  returned : List (Nat × Option ρ)

def Threads.empty (ρ : Type) : Threads ρ where
  tasks := []
  states _ := none
  frames _ := []
  started := []
  returned := []

namespace Threads

variable {ρ : Type} (s : Threads ρ)

def keyOf (n : Nat) : Option String := (s.tasks[n]?).map Task.key

def parentOf (n : Nat) : Option Nat := (s.tasks[n]?).bind Task.parent

def outcome (n : Nat) : Option ρ := (s.tasks[n]?).bind Task.outcome

/-- The task went into the queue of the key. -/
def isQueued (key : String) (n : Nat) : Bool :=
  (s.tasks[n]?).any fun task => task.queued && task.key = key

/-- What waits in the queue of a key. -/
def pending (key : String) : List Nat := ((s.states key).map QueueState.tasks).getD []

end Threads

/-- `_is_active`: the thread drains the key. -/
def isActive (key : String) (stack : List Frame) : Bool :=
  stack.any fun
    | .drain k _ => k = key
    | _ => false

/-- Who makes a call: the program of the thread, or a task. -/
def caller : List Frame → Option (Option Nat)
  | [] => some none
  | .run task :: _ => some (some task)
  | _ => none

/-- What a thread does: it calls `run`, enters the guarded section of `_drain`, ends the task that it
runs, or finds that the task that it waits for is done. -/
inductive QueueAction (ρ : Type) where
  | call (thread : Nat) (key : String)
  | next (thread : Nat)
  | finish (thread : Nat) (outcome : ρ)
  | wake (thread : Nat)

section

variable {ρ : Type} (canonicalPathKey : String → String)

/-- The guarded sections and the begins and ends of tasks, of any number of threads. -/
def queueStep (s : Threads ρ) : QueueAction ρ → Option (Threads ρ)
  | .call thread key =>
    let stack := s.frames thread
    let key := canonicalPathKey key
    let n := s.tasks.length
    match caller stack with
    | none => none
    | some parent =>
      if key = "" ∨ isActive key stack then
        some { s with
          tasks := s.tasks ++ [{ key, parent, queued := false, outcome := none }]
          frames := Function.update s.frames thread (.run n :: stack)
          started := s.started ++ [n] }
      else
        let state := (s.states key).getD { tasks := [], running := false }
        some { s with
          tasks := s.tasks ++ [{ key, parent, queued := true, outcome := none }]
          states := Function.update s.states key
            (some { tasks := state.tasks ++ [n], running := true })
          frames := Function.update s.frames thread
            ((if state.running then .wait n else .drain key n) :: stack) }
  | .next thread =>
    match s.frames thread with
    | .drain key own :: rest =>
      match s.states key with
      | some { tasks := n :: tasks, running } =>
        some { s with
          states := Function.update s.states key (some { tasks, running })
          frames := Function.update s.frames thread (.run n :: .drain key own :: rest)
          started := s.started ++ [n] }
      | _ =>
        some { s with
          states := Function.update s.states key none
          frames := Function.update s.frames thread rest
          returned := s.returned ++ [(own, s.outcome own)] }
    | _ => none
  | .finish thread outcome =>
    match s.frames thread with
    | .run n :: rest =>
      some { s with
        tasks := s.tasks.modify n fun task => { task with outcome := some outcome }
        frames := Function.update s.frames thread rest
        returned :=
          if (s.tasks[n]?).any Task.queued then s.returned
          else s.returned ++ [(n, some outcome)] }
    | _ => none
  | .wake thread =>
    match s.frames thread with
    | .wait n :: rest =>
      match s.outcome n with
      | none => none
      | some outcome =>
        some { s with
          frames := Function.update s.frames thread rest
          returned := s.returned ++ [(n, some outcome)] }
    | _ => none

/-- From the top of the stack to where the key is drained, every task that is run for a drain is the
one that its own call has queued. -/
def ownAbove (key : String) : List Frame → Bool
  | .run n :: .drain k own :: rest => k = key || (n = own && ownAbove key rest)
  | _ :: rest => ownAbove key rest
  | [] => true

/-- A call that finds its key active is made by a task that the thread came to without running one of
another caller. -/
def Own (s : Threads ρ) : QueueAction ρ → Prop
  | .call thread key => isActive (canonicalPathKey key) (s.frames thread) = true →
      ownAbove (canonicalPathKey key) (s.frames thread) = true
  | _ => True

end

instance {ρ : Type} (canonicalPathKey : String → String) (s : Threads ρ) :
    (action : QueueAction ρ) → Decidable (Own canonicalPathKey s action)
  | .call thread key => inferInstanceAs (Decidable
      (isActive (canonicalPathKey key) (s.frames thread) = true →
        ownAbove (canonicalPathKey key) (s.frames thread) = true))
  | .next _ => .isTrue trivial
  | .finish _ _ => .isTrue trivial
  | .wake _ => .isTrue trivial

/-- The second task was submitted from within the first. -/
def Above {ρ : Type} (s : Threads ρ) : Nat → Nat → Prop :=
  Relation.TransGen fun x y => s.parentOf y = some x

/-! ### Stacks -/

/-- The stack drains the key. -/
def Holds (key : String) (stack : List Frame) : Prop := ∃ own, .drain key own ∈ stack

variable {key : String} {stack : List Frame}

theorem isActive_iff :
    isActive key stack = true ↔ Holds key stack := by
  unfold isActive Holds
  rw [List.any_eq_true]
  constructor
  · rintro ⟨frame, mem, isDrain⟩
    cases frame with
    | drain k own =>
      have same : k = key := of_decide_eq_true isDrain
      exact ⟨own, same ▸ mem⟩
    | run n => cases isDrain
    | wait n => cases isDrain
  · rintro ⟨own, mem⟩
    exact ⟨_, mem, decide_eq_true rfl⟩

theorem holds_run {n : Nat} :
    Holds key (.run n :: stack) ↔ Holds key stack := by
  constructor
  · rintro ⟨own, mem⟩
    rcases List.mem_cons.mp mem with same | mem
    · cases same
    · exact ⟨own, mem⟩
  · rintro ⟨own, mem⟩
    exact ⟨own, List.mem_cons_of_mem _ mem⟩

theorem Holds.cons (holds : Holds key stack) (frame : Frame) :
    Holds key (frame :: stack) := by
  obtain ⟨own, mem⟩ := holds
  exact ⟨own, List.mem_cons_of_mem frame mem⟩

section

variable {ρ : Type} (s : Threads ρ)

/-- What is known of a frame over others.  A task that runs under a key is over the drain of it, and
was submitted from within every task of the key below; it is run for a drain or submitted by the
frame below.  A drain is not over another one of its key. -/
def Fits : Frame → List Frame → Prop
  | .run n, rest => n ∈ s.started ∧ s.outcome n = none ∧ .run n ∉ rest ∧
      (∀ key, s.keyOf n = some key → key ≠ "" → Holds key rest ∧
        ∀ m, .run m ∈ rest → s.keyOf m = some key → Above s m n) ∧
      ((∃ key own below, rest = .drain key own :: below) ∨ caller rest = some (s.parentOf n))
  | .drain key own, rest => key ≠ "" ∧ s.isQueued key own = true ∧ ¬ Holds key rest ∧
      caller rest = some (s.parentOf own)
  | .wait _, _ => True

def Good : List Frame → Prop
  | [] => True
  | frame :: rest => Fits s frame rest ∧ Good rest

end

section

variable {ρ : Type} {s : Threads ρ} {stack : List Frame}

variable {n : Nat}

theorem Good.started (good : Good s stack) (runs : .run n ∈ stack) :
    n ∈ s.started ∧ s.outcome n = none := by
  induction stack with
  | nil => cases runs
  | cons frame rest ih =>
    rcases List.mem_cons.mp runs with rfl | below
    · exact ⟨good.1.1, good.1.2.1⟩
    · exact ih good.2 below

variable {key : String}

theorem Good.holds (good : Good s stack) (runs : .run n ∈ stack) (isKey : s.keyOf n = some key)
    (proper : key ≠ "") : Holds key stack := by
  induction stack with
  | nil => cases runs
  | cons frame rest ih =>
    rcases List.mem_cons.mp runs with rfl | below
    · exact (good.1.2.2.2.1 key isKey proper).1.cons _
    · exact (ih good.2 below).cons frame

theorem Good.nested (good : Good s stack) {m : Nat} (runs : .run n ∈ stack) (runs' : .run m ∈ stack)
    (isKey : s.keyOf n = some key) (isKey' : s.keyOf m = some key) (proper : key ≠ "") :
    n = m ∨ Above s n m ∨ Above s m n := by
  induction stack with
  | nil => cases runs
  | cons frame rest ih =>
    rcases List.mem_cons.mp runs with rfl | below
    · rcases List.mem_cons.mp runs' with same | below'
      · cases same
        exact .inl rfl
      · exact .inr (.inr ((good.1.2.2.2.1 key isKey proper).2 m below' isKey'))
    · rcases List.mem_cons.mp runs' with rfl | below'
      · exact .inr (.inl ((good.1.2.2.2.1 key isKey' proper).2 n below isKey))
      · exact ih good.2 below below'

theorem exists_caller (holds : Holds key stack) {parent : Option Nat}
    (calls : caller stack = some parent) : ∃ n rest, stack = .run n :: rest ∧ parent = some n := by
  cases stack with
  | nil =>
    obtain ⟨own, mem⟩ := holds
    cases mem
  | cons frame rest =>
    cases frame with
    | run n =>
      cases calls
      exact ⟨n, rest, rfl, rfl⟩
    | drain k own => cases calls
    | wait n => cases calls

theorem Good.above (proper : key ≠ "") : ∀ {stack : List Frame}, Good s stack →
    ownAbove key stack = true → Holds key stack → ∀ {n : Nat}, caller stack = some (some n) →
      ∀ {m : Nat}, .run m ∈ stack → s.keyOf m = some key → m = n ∨ Above s m n
  | [], _, _, _, _, calls, _, _, _ => nomatch calls
  | .drain _ _ :: _, _, _, _, _, calls, _, _, _ => nomatch calls
  | .wait _ :: _, _, _, _, _, calls, _, _, _ => nomatch calls
  | .run c :: rest, good, own, holds, n, calls, m, runs, isKey => by
    cases calls
    rcases List.mem_cons.mp runs with same | below
    · cases same
      exact .inl rfl
    refine .inr ?_
    have holdsRest : Holds key rest := by
      obtain ⟨o, mem⟩ := holds
      rcases List.mem_cons.mp mem with same | mem
      · cases same
      · exact ⟨o, mem⟩
    -- The task below, from which the calling one was submitted, is below all of the key or one.
    have upper : ∀ {lower : List Frame}, Good s lower → ownAbove key lower = true →
        Holds key lower → caller lower = some (s.parentOf c) → .run m ∈ lower →
        lower.length ≤ rest.length → Above s m c := by
      intro lower goodLower ownLower holdsLower callsLower runsLower _
      obtain ⟨p, _, _, isParent⟩ := exists_caller holdsLower callsLower
      rw [isParent] at callsLower
      rcases Good.above proper goodLower ownLower holdsLower callsLower runsLower isKey with
        rfl | above
      · exact .single isParent
      · exact above.tail isParent
    obtain ⟨⟨_, _, _, _, from_⟩, goodRest⟩ := good
    rcases from_ with ⟨k, o, lower, rfl⟩ | calls
    · obtain ⟨⟨_, _, unheld, callsLower⟩, goodLower⟩ := goodRest
      have inLower : .run m ∈ lower := by
        rcases List.mem_cons.mp below with same | inLower
        · cases same
        · exact inLower
      rw [ownAbove, Bool.or_eq_true, decide_eq_true_eq, Bool.and_eq_true,
        decide_eq_true_eq] at own
      rcases own with rfl | ⟨rfl, ownLower⟩
      · exact absurd (goodLower.holds inLower isKey proper) unheld
      · have holdsLower : Holds key lower := goodLower.holds inLower isKey proper
        exact upper goodLower ownLower holdsLower callsLower inLower (by simp)
    · have ownRest : ownAbove key rest = true := by
        obtain ⟨p, lower, rfl, _⟩ := exists_caller holdsRest calls
        exact own
      exact upper goodRest ownRest holdsRest calls below (Nat.le_refl _)
  termination_by stack => stack.length

end

/-! ### What a step keeps of the frames -/

/-- Tasks are added and begun; those that are there keep all but their outcome. -/
structure Grows {ρ : Type} (s t : Threads ρ) : Prop where
  kept : ∀ (n : Nat) task, s.tasks[n]? = some task →
    ∃ outcome, t.tasks[n]? = some { task with outcome }
  started : ∀ n ∈ s.started, n ∈ t.started

section

variable {ρ : Type} {s t : Threads ρ}

variable {n : Nat}

theorem Grows.keyOf (grows : Grows s t) (there : n < s.tasks.length) :
    t.keyOf n = s.keyOf n := by
  obtain ⟨outcome, isTask⟩ := grows.kept n _ (List.getElem?_eq_getElem there)
  rw [Threads.keyOf, Threads.keyOf, isTask, List.getElem?_eq_getElem there]
  rfl

theorem Grows.parentOf (grows : Grows s t) (there : n < s.tasks.length) :
    t.parentOf n = s.parentOf n := by
  obtain ⟨outcome, isTask⟩ := grows.kept n _ (List.getElem?_eq_getElem there)
  rw [Threads.parentOf, Threads.parentOf, isTask, List.getElem?_eq_getElem there]
  rfl

theorem Grows.isQueued (grows : Grows s t) (there : n < s.tasks.length) (key : String) :
    t.isQueued key n = s.isQueued key n := by
  obtain ⟨outcome, isTask⟩ := grows.kept n _ (List.getElem?_eq_getElem there)
  rw [Threads.isQueued, Threads.isQueued, isTask, List.getElem?_eq_getElem there]
  rfl

theorem Grows.isQueued_eq (grows : Grows s t) (lengths : t.tasks.length = s.tasks.length) :
    t.isQueued = s.isQueued := by
  funext key n
  by_cases lt : n < s.tasks.length
  · exact grows.isQueued lt key
  · rw [Threads.isQueued, Threads.isQueued, List.getElem?_eq_none (Nat.le_of_not_lt lt),
      List.getElem?_eq_none (lengths ▸ Nat.le_of_not_lt lt)]

theorem Grows.parentOf_eq (grows : Grows s t) (lengths : t.tasks.length = s.tasks.length) :
    t.parentOf n = s.parentOf n := by
  by_cases lt : n < s.tasks.length
  · exact grows.parentOf lt
  · rw [Threads.parentOf, Threads.parentOf, List.getElem?_eq_none (Nat.le_of_not_lt lt),
      List.getElem?_eq_none (lengths ▸ Nat.le_of_not_lt lt)]

theorem lt_of_isQueued {key : String} (queued : s.isQueued key n = true) :
    n < s.tasks.length := by
  obtain ⟨task, isTask, _⟩ := (Option.any_eq_true _ _).mp queued
  exact (List.getElem?_eq_some_iff.mp isTask).1

theorem keyOf_of_isQueued {key : String} (queued : s.isQueued key n = true) :
    s.keyOf n = some key := by
  obtain ⟨task, isTask, holds⟩ := (Option.any_eq_true _ _).mp queued
  rw [Bool.and_eq_true, decide_eq_true_eq] at holds
  rw [Threads.keyOf, isTask, Option.map_some, holds.2]

theorem Grows.above (grows : Grows s t) {m : Nat} (above : Above s n m) : Above t n m := by
  refine Relation.TransGen.mono ?_ n m above
  intro x y isParent
  obtain ⟨task, isTask, _⟩ := Option.bind_eq_some_iff.mp isParent
  rw [grows.parentOf (List.getElem?_eq_some_iff.mp isTask).1]
  exact isParent

theorem Good.mono (grows : Grows s t) (bound : ∀ n ∈ s.started, n < s.tasks.length)
    {stack : List Frame} (good : Good s stack)
    (open_ : ∀ n, .run n ∈ stack → t.outcome n = none) : Good t stack := by
  induction stack with
  | nil => trivial
  | cons frame rest ih =>
    refine ⟨?_, ih good.2 fun n below => open_ n (List.mem_cons_of_mem frame below)⟩
    cases frame with
    | run n =>
      obtain ⟨started, _, notBelow, keyed, from_⟩ := good.1
      have there := bound n started
      refine ⟨grows.started n started, open_ n List.mem_cons_self, notBelow, ?_, ?_⟩
      · intro key isKey proper
        rw [grows.keyOf there] at isKey
        obtain ⟨holds, upper⟩ := keyed key isKey proper
        refine ⟨holds, fun m below isKey' => ?_⟩
        rw [grows.keyOf (bound m (good.2.started below).1)] at isKey'
        exact grows.above (upper m below isKey')
      · rw [grows.parentOf there]
        exact from_
    | drain key own =>
      obtain ⟨proper, queued, unheld, calls⟩ := good.1
      have there := lt_of_isQueued queued
      refine ⟨proper, ?_, unheld, ?_⟩
      · rw [grows.isQueued there]
        exact queued
      · rw [grows.parentOf there]
        exact calls
    | wait n => trivial

end

/-! ### The invariant -/

/-- A task begins after the one that it was submitted from. -/
def Ordered {ρ : Type} (s : Threads ρ) : Prop := ∀ n m, s.parentOf m = some n →
  n ∈ s.started ∧ (m ∈ s.started → s.started.idxOf n < s.started.idxOf m)

structure Sound {ρ : Type} (s : Threads ρ) : Prop where
  good : ∀ thread, Good s (s.frames thread)
  bound : ∀ n ∈ s.started, n < s.tasks.length
  once : s.started.Nodup
  draining : ∀ key state, s.states key = some state →
    state.running = true ∧ ∃ thread, Holds key (s.frames thread)
  stated : ∀ thread key, Holds key (s.frames thread) → s.states key ≠ none
  single : ∀ thread thread' key, Holds key (s.frames thread) → Holds key (s.frames thread') →
    thread = thread'
  distinct : ∀ thread thread' n, .run n ∈ s.frames thread → .run n ∈ s.frames thread' →
    thread = thread'
  fifo : ∀ key, s.started.filter (s.isQueued key) ++ s.pending key =
    (List.range s.tasks.length).filter (s.isQueued key)
  ended : ∀ n ∈ s.started, s.outcome n = none → ∃ thread, .run n ∈ s.frames thread
  begun : ∀ n, s.outcome n ≠ none → n ∈ s.started
  answers : ∀ entry ∈ s.returned, entry.2 ≠ none ∧ s.outcome entry.1 = entry.2
  orders : Ordered s

theorem sound_empty (ρ : Type) : Sound (.empty ρ) where
  good _ := trivial
  bound := nofun
  once := List.nodup_nil
  draining _ _ isState := nomatch isState
  stated _ _ holds := nomatch holds.choose_spec
  single _ _ _ holds := nomatch holds.choose_spec
  distinct _ _ _ runs := nomatch runs
  fifo _ := rfl
  ended := nofun
  begun n ended := by
    rw [Threads.outcome, Threads.empty, List.getElem?_nil] at ended
    exact absurd rfl ended
  answers := nofun
  orders n m isParent := by
    rw [Threads.parentOf, Threads.empty, List.getElem?_nil] at isParent
    cases isParent

section

variable {ρ : Type} {s : Threads ρ}

variable {key : String} {n thread other : Nat}

theorem Sound.waits (sound : Sound s) (waits : n ∈ s.pending key) :
    s.isQueued key n = true ∧ n ∉ s.started := by
  have mem : n ∈ (List.range s.tasks.length).filter (s.isQueued key) := by
    rw [← sound.fifo key]
    exact List.mem_append_right _ waits
  have queued := (List.mem_filter.mp mem).2
  refine ⟨queued, fun started => ?_⟩
  have nodup : (s.started.filter (s.isQueued key) ++ s.pending key).Nodup := by
    rw [sound.fifo key]
    exact List.nodup_range.filter _
  exact (List.nodup_append.mp nodup).2.2 n (List.mem_filter.mpr ⟨started, queued⟩) n waits rfl

theorem Sound.notRunning (sound : Sound s) (fresh : n ∉ s.started) (thread : Nat) :
    .run n ∉ s.frames thread :=
  fun runs => fresh ((sound.good thread).started runs).1

theorem forall_update {P : Nat → List Frame → Prop} {stack : List Frame} (here : P thread stack)
    (others : ∀ other, other ≠ thread → P other (s.frames other)) (n : Nat) :
    P n (Function.update s.frames thread stack n) := by
  by_cases same : n = thread
  · subst same
    rw [Function.update_self]
    exact here
  · rw [Function.update_of_ne same]
    exact others n same

variable {rest : List Frame}

theorem distinct_push {frames' : Nat → List Frame}
    (distinct : ∀ a b m, .run m ∈ s.frames a → .run m ∈ s.frames b → a = b)
    (fresh : ∀ a, .run n ∈ s.frames a → a = thread)
    (isStacks : frames' = Function.update s.frames thread rest)
    (kept : ∀ m, .run m ∈ rest → m = n ∨ .run m ∈ s.frames thread) (a b m : Nat)
    (runs : .run m ∈ frames' a) (runs' : .run m ∈ frames' b) : a = b := by
  have back : ∀ c, .run m ∈ frames' c → .run m ∈ s.frames c ∨ c = thread ∧ m = n := by
    intro c runs
    by_cases same : c = thread
    · subst same
      rw [isStacks, Function.update_self] at runs
      rcases kept m runs with isNew | old
      · exact .inr ⟨rfl, isNew⟩
      · exact .inl old
    · rw [isStacks, Function.update_of_ne same] at runs
      exact .inl runs
  rcases back a runs with old | ⟨rfl, rfl⟩
  · rcases back b runs' with old' | ⟨rfl, rfl⟩
    · exact distinct a b m old old'
    · exact fresh a old
  · rcases back b runs' with old' | ⟨rfl, -⟩
    · exact (fresh b old').symm
    · rfl

theorem filter_isQueued {t : Threads ρ} (grows : Grows s t) (key : String) {ns : List Nat}
    (there : ∀ n ∈ ns, n < s.tasks.length) :
    ns.filter (t.isQueued key) = ns.filter (s.isQueued key) :=
  List.filter_congr fun n mem => grows.isQueued (there n mem) key

variable {t : Threads ρ}

variable {task : Task ρ}

theorem grows_append (tasks : t.tasks = s.tasks ++ [task])
    (started : ∀ n ∈ s.started, n ∈ t.started) : Grows s t where
  kept n old isOld := by
    obtain ⟨lt, -⟩ := List.getElem?_eq_some_iff.mp isOld
    refine ⟨old.outcome, ?_⟩
    rw [tasks, List.getElem?_append_left lt, isOld]
  started := started

theorem outcome_append (tasks : t.tasks = s.tasks ++ [task]) (fresh : task.outcome = none) (n : Nat) :
    t.outcome n = s.outcome n := by
  rw [Threads.outcome, Threads.outcome, tasks]
  rcases Nat.lt_trichotomy n s.tasks.length with lt | rfl | gt
  · rw [List.getElem?_append_left lt]
  · rw [List.getElem?_concat_length, List.getElem?_eq_none (Nat.le_refl _)]
    exact fresh
  · rw [List.getElem?_eq_none (by rw [List.length_append]; exact gt),
      List.getElem?_eq_none (by omega)]

theorem range_append (tasks : t.tasks = s.tasks ++ [task]) (grows : Grows s t) (key : String) :
    (List.range t.tasks.length).filter (t.isQueued key) =
      (List.range s.tasks.length).filter (s.isQueued key) ++
        if task.queued = true ∧ task.key = key then [s.tasks.length] else [] := by
  have here : t.isQueued key s.tasks.length = (task.queued && decide (task.key = key)) := by
    rw [Threads.isQueued, tasks, List.getElem?_concat_length]
    rfl
  rw [tasks, List.length_append, List.length_singleton, List.range_succ, List.filter_append,
    filter_isQueued grows key fun n mem => List.mem_range.mp mem, List.filter_singleton, here]
  congr 1
  by_cases queued : task.queued = true ∧ task.key = key
  · rw [if_pos queued, queued.1, queued.2, decide_eq_true rfl]
    rfl
  · have not : (task.queued && decide (task.key = key)) = false := by
      rw [Bool.and_eq_false_iff]
      rcases Bool.eq_false_or_eq_true task.queued with yes | no
      · exact .inr (decide_eq_false fun same => queued ⟨yes, same⟩)
      · exact .inl no
    rw [if_neg queued, not]
    rfl

theorem Sound.ordered (sound : Sound s) {more : List Nat} (started : t.started = s.started ++ more)
    (parents : ∀ n m, t.parentOf m = some n →
      s.parentOf m = some n ∨ n ∈ s.started ∧ m ∉ s.started) : Ordered t := by
  intro n m isParent
  have known : n ∈ s.started ∧ (m ∈ s.started → s.started.idxOf n < s.started.idxOf m) := by
    rcases parents n m isParent with old | ⟨begun, fresh⟩
    · exact sound.orders n m old
    · exact ⟨begun, fun mem => absurd mem fresh⟩
  obtain ⟨begun, before⟩ := known
  rw [started]
  refine ⟨List.mem_append_left _ begun, fun mem => ?_⟩
  rw [List.idxOf_append_of_mem begun]
  by_cases old : m ∈ s.started
  · rw [List.idxOf_append_of_mem old]
    exact before old
  · rw [List.idxOf_append_of_notMem old]
    have := List.idxOf_lt_length_of_mem begun
    omega

theorem Sound.parents (sound : Sound s) (calls : caller (s.frames thread) = some task.parent)
    (tasks : t.tasks = s.tasks ++ [task]) (n m : Nat) (isParent : t.parentOf m = some n) :
    s.parentOf m = some n ∨ n ∈ s.started ∧ m ∉ s.started := by
  rw [Threads.parentOf, tasks] at isParent
  rcases Nat.lt_trichotomy m s.tasks.length with lt | rfl | gt
  · rw [List.getElem?_append_left lt] at isParent
    exact .inl isParent
  · rw [List.getElem?_concat_length, Option.bind_some] at isParent
    refine .inr ⟨?_, fun mem => absurd (sound.bound _ mem) (Nat.lt_irrefl _)⟩
    rw [isParent] at calls
    cases isStack : s.frames thread with
    | nil =>
      rw [isStack] at calls
      cases calls
    | cons frame rest =>
      rw [isStack] at calls
      have runs : .run n ∈ s.frames thread := by
        cases frame with
        | run c =>
          cases calls
          exact isStack ▸ List.mem_cons_self
        | drain k own => cases calls
        | wait c => cases calls
      exact ((sound.good thread).started runs).1
  · rw [List.getElem?_eq_none (by rw [List.length_append]; exact gt)] at isParent
    cases isParent

variable {frame f : Frame}

theorem mem_pushed (frames : t.frames = Function.update s.frames thread (frame :: s.frames thread))
    (mem : f ∈ s.frames other) : f ∈ t.frames other := by
  rw [frames]
  by_cases same : other = thread
  · subst same
    rw [Function.update_self]
    exact List.mem_cons_of_mem _ mem
  · rw [Function.update_of_ne same]
    exact mem

theorem holds_pushed
    (frames : t.frames = Function.update s.frames thread (.run n :: s.frames thread)) (other : Nat)
    (key : String) : Holds key (t.frames other) ↔ Holds key (s.frames other) := by
  rw [frames]
  by_cases same : other = thread
  · subst same
    rw [Function.update_self]
    exact holds_run
  · rw [Function.update_of_ne same]

theorem mem_popped (isStack : s.frames thread = frame :: rest)
    (frames : t.frames = Function.update s.frames thread rest) (mem : f ∈ t.frames other) :
    f ∈ s.frames other := by
  rw [frames] at mem
  by_cases same : other = thread
  · subst same
    rw [Function.update_self] at mem
    rw [isStack]
    exact List.mem_cons_of_mem _ mem
  · rw [Function.update_of_ne same] at mem
    exact mem

theorem mem_left (isStack : s.frames thread = frame :: rest)
    (frames : t.frames = Function.update s.frames thread rest) (mem : f ∈ s.frames other)
    (stays : f ≠ frame) : f ∈ t.frames other := by
  rw [frames]
  by_cases same : other = thread
  · subst same
    rw [Function.update_self]
    rw [isStack] at mem
    exact (List.mem_cons.mp mem).resolve_left stays
  · rw [Function.update_of_ne same]
    exact mem

theorem Sound.goods (sound : Sound s) (grows : Grows s t) (outcomes : ∀ n, t.outcome n = s.outcome n)
    (stack : List Frame) (good : Good s stack) : Good t stack := by
  refine good.mono grows sound.bound fun n runs => ?_
  rw [outcomes]
  exact (good.started runs).2

theorem Sound.begins (sound : Sound s) (grows : Grows s t)
    (outcomes : ∀ m, t.outcome m = s.outcome m) (fresh : n ∉ s.started) (there : n < t.tasks.length)
    (onTop : Good t (.run n :: s.frames thread))
    (frames : t.frames = Function.update s.frames thread (.run n :: s.frames thread))
    (started : t.started = s.started ++ [n]) (returned : t.returned = s.returned)
    (draining : ∀ key state, t.states key = some state →
      state.running = true ∧ ∃ thread, Holds key (s.frames thread))
    (stated : ∀ thread key, Holds key (s.frames thread) → t.states key ≠ none)
    (fifo : ∀ key, t.started.filter (t.isQueued key) ++ t.pending key =
      (List.range t.tasks.length).filter (t.isQueued key)) (orders : Ordered t) : Sound t := by
  have holds := holds_pushed frames
  exact {
    good := fun m => by
      rw [frames]
      exact forall_update onTop (fun other _ => sound.goods grows outcomes _ (sound.good other)) m
    bound := fun m mem => by
      rw [started, List.mem_append, List.mem_singleton] at mem
      rcases mem with mem | rfl
      · obtain ⟨_, isTask⟩ := grows.kept m _ (List.getElem?_eq_getElem (sound.bound m mem))
        exact (List.getElem?_eq_some_iff.mp isTask).1
      · exact there
    once := by
      rw [started]
      exact List.nodup_append.mpr ⟨sound.once, List.nodup_singleton _, fun a mem b isNew same => by
        rw [List.mem_singleton] at isNew
        subst isNew same
        exact fresh mem⟩
    draining := fun k state isState => by
      obtain ⟨running, other, held⟩ := draining k state isState
      exact ⟨running, other, (holds other k).mpr held⟩
    stated := fun other k held => stated other k ((holds other k).mp held)
    single := fun a b k held held' =>
      sound.single a b k ((holds a k).mp held) ((holds b k).mp held')
    distinct := distinct_push sound.distinct (fun a runs => absurd runs (sound.notRunning fresh a))
      frames fun m runs => by
        rcases List.mem_cons.mp runs with same | runs
        · cases same
          exact .inl rfl
        · exact .inr runs
    fifo := fifo
    ended := fun m mem ended => by
      rw [started, List.mem_append, List.mem_singleton] at mem
      rw [outcomes] at ended
      rcases mem with mem | rfl
      · obtain ⟨other, runs⟩ := sound.ended m mem ended
        exact ⟨other, mem_pushed frames runs⟩
      · refine ⟨thread, ?_⟩
        rw [frames, Function.update_self]
        exact List.mem_cons_self
    begun := fun m ended => by
      rw [outcomes] at ended
      exact grows.started m (sound.begun m ended)
    answers := fun entry mem => by
      rw [returned] at mem
      rw [outcomes]
      exact sound.answers entry mem
    orders := orders }

theorem Sound.direct (sound : Sound s) {parent : Option Nat}
    (calls : caller (s.frames thread) = some parent)
    (active : key ≠ "" → Holds key (s.frames thread) ∧ ownAbove key (s.frames thread) = true)
    (tasks : t.tasks = s.tasks ++ [{ key, parent, queued := false, outcome := none }])
    (states : t.states = s.states)
    (frames : t.frames = Function.update s.frames thread (.run s.tasks.length :: s.frames thread))
    (started : t.started = s.started ++ [s.tasks.length]) (returned : t.returned = s.returned) :
    Sound t := by
  have grows : Grows s t := grows_append tasks fun n mem => by
    rw [started]
    exact List.mem_append_left _ mem
  have outcomes : ∀ n, t.outcome n = s.outcome n := outcome_append tasks rfl
  have fresh : s.tasks.length ∉ s.started :=
    fun mem => absurd (sound.bound _ mem) (Nat.lt_irrefl _)
  have isKey : t.keyOf s.tasks.length = some key := by
    rw [Threads.keyOf, tasks, List.getElem?_concat_length]
    rfl
  have isParent : t.parentOf s.tasks.length = parent := by
    rw [Threads.parentOf, tasks, List.getElem?_concat_length]
    rfl
  have noOutcome : t.outcome s.tasks.length = none := by
    rw [outcomes, Threads.outcome, List.getElem?_eq_none (Nat.le_refl _)]
    rfl
  have goods : Good t (s.frames thread) := sound.goods grows outcomes _ (sound.good thread)
  have keyed : Good t (.run s.tasks.length :: s.frames thread) := by
    refine ⟨⟨?_, noOutcome, sound.notRunning fresh thread, ?_, .inr ?_⟩, goods⟩
    · rw [started]
      exact List.mem_append_right _ List.mem_cons_self
    · intro k same proper
      rw [isKey, Option.some.injEq] at same
      subst same
      obtain ⟨holds, own⟩ := active proper
      refine ⟨holds, fun m runs isKey' => ?_⟩
      obtain ⟨p, lower, isStack, rfl⟩ := exists_caller holds calls
      have top : caller (s.frames thread) = some (some p) := calls
      rcases goods.above proper own holds top runs isKey' with rfl | above
      · exact .single isParent
      · exact above.tail isParent
    · rw [isParent]
      exact calls
  refine sound.begins grows outcomes fresh ?_ keyed frames started returned ?_ ?_ (fun k => ?_)
    (sound.ordered started (sound.parents calls tasks))
  · rw [tasks, List.length_append, List.length_singleton]
    exact Nat.lt_succ_self _
  · rw [states]
    exact sound.draining
  · rw [states]
    exact sound.stated
  · have notQueued : t.isQueued k s.tasks.length = false := by
      rw [Threads.isQueued, tasks, List.getElem?_concat_length]
      rfl
    have pending : t.pending k = s.pending k := by
      rw [Threads.pending, Threads.pending, states]
    rw [range_append tasks grows, if_neg (fun queued => Bool.noConfusion queued.1), started,
      List.filter_append, filter_isQueued grows k sound.bound, List.filter_singleton, notQueued,
      cond_false, List.append_nil, List.append_nil, pending]
    exact sound.fifo k

theorem Sound.queue (sound : Sound s) {parent : Option Nat}
    (calls : caller (s.frames thread) = some parent) (proper : key ≠ "")
    (idle : ¬ Holds key (s.frames thread))
    (isFrame : frame = .wait s.tasks.length ∧ s.states key ≠ none ∨
      frame = .drain key s.tasks.length ∧ s.states key = none)
    (tasks : t.tasks = s.tasks ++ [{ key, parent, queued := true, outcome := none }])
    (states : t.states = Function.update s.states key
      (some { tasks := s.pending key ++ [s.tasks.length], running := true }))
    (frames : t.frames = Function.update s.frames thread (frame :: s.frames thread))
    (started : t.started = s.started) (returned : t.returned = s.returned) : Sound t := by
  have grows : Grows s t := grows_append tasks fun n mem => started ▸ mem
  have outcomes : ∀ n, t.outcome n = s.outcome n := outcome_append tasks rfl
  have isQueued : t.isQueued key s.tasks.length = true := by
    rw [Threads.isQueued, tasks, List.getElem?_concat_length, Option.any_some, Bool.true_and,
      decide_eq_true_eq]
  have isParent : t.parentOf s.tasks.length = parent := by
    rw [Threads.parentOf, tasks, List.getElem?_concat_length]
    rfl
  have notRun : ∀ n, .run n ∈ frame :: s.frames thread → .run n ∈ s.frames thread := by
    intro n runs
    rcases List.mem_cons.mp runs with same | runs
    · rcases isFrame with ⟨rfl, -⟩ | ⟨rfl, -⟩ <;> cases same
    · exact runs
  have goods : ∀ other, Good t (s.frames other) := by
    intro other
    refine (sound.good other).mono grows sound.bound fun n runs => ?_
    rw [outcomes]
    exact ((sound.good other).started runs).2
  have framed : Good t (frame :: s.frames thread) := by
    refine ⟨?_, goods thread⟩
    rcases isFrame with ⟨rfl, -⟩ | ⟨rfl, -⟩
    · trivial
    · exact ⟨proper, isQueued, idle, isParent ▸ calls⟩
  have back : ∀ {other k}, Holds k (t.frames other) →
      Holds k (s.frames other) ∨ other = thread ∧ k = key ∧ s.states key = none := by
    rintro other k ⟨own, mem⟩
    rw [frames] at mem
    by_cases same : other = thread
    · subst same
      rw [Function.update_self] at mem
      rcases List.mem_cons.mp mem with isNew | mem
      · rcases isFrame with ⟨rfl, -⟩ | ⟨rfl, none⟩
        · cases isNew
        · cases isNew
          exact .inr ⟨rfl, rfl, none⟩
      · exact .inl ⟨own, mem⟩
    · rw [Function.update_of_ne same] at mem
      exact .inl ⟨own, mem⟩
  have unheld : s.states key = none → ∀ other, ¬ Holds key (s.frames other) :=
    fun none other held => sound.stated other key held none
  exact {
    good := fun n => by
      rw [frames]
      exact forall_update framed (fun other _ => goods other) n
    bound := fun n mem => by
      rw [started] at mem
      rw [tasks, List.length_append, List.length_singleton]
      have := sound.bound n mem
      omega
    once := started ▸ sound.once
    draining := fun k state isState => by
      rw [states] at isState
      by_cases same : k = key
      · subst same
        rw [Function.update_self, Option.some.injEq] at isState
        subst isState
        refine ⟨rfl, ?_⟩
        rcases isFrame with ⟨-, some⟩ | ⟨rfl, -⟩
        · obtain ⟨old, isOld⟩ := Option.ne_none_iff_exists'.mp some
          obtain ⟨-, other, own, mem⟩ := sound.draining k old isOld
          exact ⟨other, own, mem_pushed frames mem⟩
        · refine ⟨thread, s.tasks.length, ?_⟩
          rw [frames, Function.update_self]
          exact List.mem_cons_self
      · rw [Function.update_of_ne same] at isState
        obtain ⟨running, other, own, mem⟩ := sound.draining k state isState
        exact ⟨running, other, own, mem_pushed frames mem⟩
    stated := fun other k held => by
      rw [states]
      by_cases same : k = key
      · subst same
        rw [Function.update_self]
        exact Option.some_ne_none _
      · rw [Function.update_of_ne same]
        rcases back held with held | ⟨-, isKey, -⟩
        · exact sound.stated other k held
        · exact absurd isKey same
    single := fun a b k held held' => by
      rcases back held with held | ⟨rfl, rfl, none⟩
      · rcases back held' with held' | ⟨rfl, rfl, none⟩
        · exact sound.single a b k held held'
        · exact absurd held (unheld none a)
      · rcases back held' with held' | ⟨rfl, -, -⟩
        · exact absurd held' (unheld none b)
        · rfl
    distinct := fun a b n runs runs' => by
      have old : ∀ c, .run n ∈ t.frames c → .run n ∈ s.frames c := by
        rw [frames]
        intro c
        exact forall_update (P := fun c stack => .run n ∈ stack → .run n ∈ s.frames c) (notRun n)
          (fun _ _ runs => runs) c
      exact sound.distinct a b n (old a runs) (old b runs')
    fifo := fun k => by
      rw [range_append tasks grows, started, filter_isQueued grows k sound.bound]
      by_cases same : k = key
      · subst same
        have pending : t.pending k = s.pending k ++ [s.tasks.length] := by
          rw [Threads.pending, states, Function.update_self]
          rfl
        rw [pending, if_pos ⟨rfl, rfl⟩, ← List.append_assoc, sound.fifo k]
      · have pending : t.pending k = s.pending k := by
          rw [Threads.pending, states, Function.update_of_ne same, Threads.pending]
        rw [pending, if_neg (fun queued => same queued.2.symm), List.append_nil, sound.fifo k]
    ended := fun n mem ended => by
      rw [started] at mem
      rw [outcomes] at ended
      obtain ⟨other, runs⟩ := sound.ended n mem ended
      exact ⟨other, mem_pushed frames runs⟩
    begun := fun n ended => by
      rw [outcomes] at ended
      exact grows.started n (sound.begun n ended)
    answers := fun entry mem => by
      rw [returned] at mem
      rw [outcomes]
      exact sound.answers entry mem
    orders := sound.ordered (started.trans (List.append_nil _).symm) (sound.parents calls tasks) }

theorem grows_started (tasks : t.tasks = s.tasks) (started : ∀ n ∈ s.started, n ∈ t.started) :
    Grows s t where
  kept n task isTask := ⟨task.outcome, by rw [tasks, isTask]⟩
  started := started

theorem Sound.take (sound : Sound s) {own : Nat} {waiting : List Nat} {running : Bool}
    (isStack : s.frames thread = .drain key own :: rest)
    (isState : s.states key = some { tasks := n :: waiting, running }) (tasks : t.tasks = s.tasks)
    (states : t.states = Function.update s.states key (some { tasks := waiting, running }))
    (frames : t.frames = Function.update s.frames thread (.run n :: s.frames thread))
    (started : t.started = s.started ++ [n]) (returned : t.returned = s.returned) : Sound t := by
  have grows : Grows s t := grows_started tasks fun m mem => by
    rw [started]
    exact List.mem_append_left _ mem
  have outcomes : ∀ m, t.outcome m = s.outcome m := fun m => by
    rw [Threads.outcome, Threads.outcome, tasks]
  have queues : t.isQueued = s.isQueued := by
    funext k m
    rw [Threads.isQueued, Threads.isQueued, tasks]
  have wasPending : s.pending key = n :: waiting := by
    rw [Threads.pending, isState]
    rfl
  obtain ⟨queued, fresh⟩ := sound.waits (n := n) (wasPending ▸ List.mem_cons_self)
  have there := lt_of_isQueued queued
  have isKey : t.keyOf n = some key := by
    rw [grows.keyOf there]
    exact keyOf_of_isQueued queued
  have goods : Good t (s.frames thread) := sound.goods grows outcomes _ (sound.good thread)
  have noOutcome : t.outcome n = none := by
    by_contra ended
    rw [outcomes] at ended
    exact fresh (sound.begun n ended)
  have onTop : Good t (.run n :: s.frames thread) := by
    refine ⟨⟨?_, noOutcome, sound.notRunning fresh thread, ?_, .inl ⟨key, own, rest, isStack⟩⟩,
      goods⟩
    · rw [started]
      exact List.mem_append_right _ List.mem_cons_self
    · intro k same proper
      rw [isKey, Option.some.injEq] at same
      subst same
      refine ⟨⟨own, isStack ▸ List.mem_cons_self⟩, fun m runs isKey' => ?_⟩
      -- No task of the key is below its drain.
      have good := goods
      rw [isStack] at good runs
      rcases List.mem_cons.mp runs with same | below
      · cases same
      · exact absurd (good.2.holds below isKey' proper) good.1.2.2.1
  refine sound.begins grows outcomes fresh (tasks ▸ there) onTop frames started returned (fun k state isState' => ?_)
    (fun other k held => ?_) (fun k => ?_) (sound.ordered started fun _ _ isParent => ?_)
  · rw [states] at isState'
    by_cases same : k = key
    · subst same
      rw [Function.update_self, Option.some.injEq] at isState'
      subst isState'
      exact ⟨(sound.draining k _ isState).1, (sound.draining k _ isState).2⟩
    · rw [Function.update_of_ne same] at isState'
      exact sound.draining k state isState'
  · rw [states]
    by_cases same : k = key
    · subst same
      rw [Function.update_self]
      exact Option.some_ne_none _
    · rw [Function.update_of_ne same]
      exact sound.stated other k held
  · rw [tasks, queues, started, List.filter_append, ← sound.fifo k]
    by_cases same : k = key
    · subst same
      have pending : t.pending k = waiting := by
        rw [Threads.pending, states, Function.update_self]
        rfl
      rw [pending, wasPending, List.filter_singleton, queued, cond_true, List.append_assoc,
        List.singleton_append]
    · have pending : t.pending k = s.pending k := by
        rw [Threads.pending, states, Function.update_of_ne same, Threads.pending]
      have notQueued : s.isQueued k n = false := by
        rw [Bool.eq_false_iff]
        intro queued'
        exact same (Option.some.inj
          ((keyOf_of_isQueued queued').symm.trans (keyOf_of_isQueued queued)))
      rw [pending, List.filter_singleton, notQueued, cond_false, List.append_nil]
  · rw [Threads.parentOf, tasks] at isParent
    exact .inl isParent

theorem holds_popped (isStack : s.frames thread = frame :: rest)
    (frames : t.frames = Function.update s.frames thread rest) (notDrain : ∀ own, frame ≠ .drain key own) :
    Holds key (t.frames other) ↔ Holds key (s.frames other) :=
  ⟨fun ⟨own, mem⟩ => ⟨own, mem_popped isStack frames mem⟩,
    fun ⟨own, mem⟩ => ⟨own, mem_left isStack frames mem fun isTop => notDrain own isTop.symm⟩⟩

theorem Sound.pop (sound : Sound s) (isStack : s.frames thread = frame :: rest) (grows : Grows s t)
    (lengths : t.tasks.length = s.tasks.length)
    (frames : t.frames = Function.update s.frames thread rest) (started : t.started = s.started)
    (pending : ∀ k, t.pending k = s.pending k) (onRest : Good t rest)
    (others : ∀ other, other ≠ thread → Good t (s.frames other))
    (draining : ∀ k state, t.states k = some state → state.running = true ∧ ∃ thread, Holds k (t.frames thread))
    (stated : ∀ thread k, Holds k (t.frames thread) → t.states k ≠ none)
    (ended : ∀ m ∈ s.started, t.outcome m = none → ∃ thread, .run m ∈ t.frames thread)
    (begun : ∀ m, t.outcome m ≠ none → m ∈ s.started)
    (answers : ∀ entry ∈ t.returned, entry.2 ≠ none ∧ t.outcome entry.1 = entry.2) : Sound t where
  good m := by
    rw [frames]
    exact forall_update onRest others m
  bound m mem := by
    rw [lengths]
    exact sound.bound m (started ▸ mem)
  once := started ▸ sound.once
  draining := draining
  stated := stated
  single a b k := fun ⟨o, mem⟩ ⟨o', mem'⟩ => sound.single a b k ⟨o, mem_popped isStack frames mem⟩
    ⟨o', mem_popped isStack frames mem'⟩
  distinct a b m runs runs' := sound.distinct a b m (mem_popped isStack frames runs)
    (mem_popped isStack frames runs')
  fifo k := by
    rw [lengths, grows.isQueued_eq lengths, started, pending]
    exact sound.fifo k
  ended m mem := ended m (started ▸ mem)
  begun m done := started ▸ begun m done
  answers := answers
  orders := sound.ordered (started.trans (List.append_nil _).symm) fun _ _ isParent =>
    .inl ((grows.parentOf_eq lengths).symm.trans isParent)

theorem Sound.answer (sound : Sound s) (isStack : s.frames thread = frame :: rest)
    (notRun : ∀ m, frame ≠ .run m) (tasks : t.tasks = s.tasks)
    (frames : t.frames = Function.update s.frames thread rest) (started : t.started = s.started)
    (pending : ∀ k, t.pending k = s.pending k)
    (draining : ∀ k state, t.states k = some state → state.running = true ∧ ∃ thread, Holds k (t.frames thread))
    (stated : ∀ thread k, Holds k (t.frames thread) → t.states k ≠ none) (isDone : s.outcome n ≠ none)
    (returned : t.returned = s.returned ++ [(n, s.outcome n)]) : Sound t := by
  have grows : Grows s t := grows_started tasks fun m mem => started ▸ mem
  have outcomes : ∀ m, t.outcome m = s.outcome m := fun m => by
    rw [Threads.outcome, Threads.outcome, tasks]
  have good := sound.good thread
  rw [isStack] at good
  refine sound.pop isStack grows (congrArg List.length tasks) frames started pending
    (sound.goods grows outcomes _ good.2) (fun other _ => sound.goods grows outcomes _ (sound.good other))
    draining stated (fun m mem isOpen => ?_) (fun m done => ?_) (fun entry mem => ?_)
  · rw [outcomes] at isOpen
    obtain ⟨other, runs⟩ := sound.ended m mem isOpen
    exact ⟨other, mem_left isStack frames runs fun isTop => notRun m isTop.symm⟩
  · rw [outcomes] at done
    exact sound.begun m done
  · rw [returned, List.mem_append, List.mem_singleton] at mem
    rw [outcomes]
    rcases mem with mem | rfl
    · exact sound.answers entry mem
    · exact ⟨isDone, rfl⟩

theorem Sound.leave (sound : Sound s) {own : Nat}
    (isStack : s.frames thread = .drain key own :: rest) (isEmpty : s.pending key = [])
    (tasks : t.tasks = s.tasks) (states : t.states = Function.update s.states key none)
    (frames : t.frames = Function.update s.frames thread rest) (started : t.started = s.started)
    (returned : t.returned = s.returned ++ [(own, s.outcome own)]) : Sound t := by
  have good := sound.good thread
  rw [isStack] at good
  obtain ⟨⟨proper, queued, unheld, -⟩, goodRest⟩ := good
  have held : Holds key (s.frames thread) := ⟨own, isStack ▸ List.mem_cons_self⟩
  have popped : ∀ {other : Nat} {k : String}, Holds k (t.frames other) → Holds k (s.frames other) :=
    fun ⟨o, mem⟩ => ⟨o, mem_popped isStack frames mem⟩
  have notKey : ∀ other, ¬ Holds key (t.frames other) := by
    intro other holds
    have same := sound.single other thread key (popped holds) held
    rw [frames, same, Function.update_self] at holds
    exact unheld holds
  have ownDone : s.outcome own ≠ none := by
    intro isOpen
    have isStarted : own ∈ s.started := by
      have mem := List.mem_filter.mpr ⟨List.mem_range.mpr (lt_of_isQueued queued), queued⟩
      rw [← sound.fifo key, isEmpty, List.append_nil] at mem
      exact (List.mem_filter.mp mem).1
    obtain ⟨other, runs⟩ := sound.ended own isStarted isOpen
    have isKey := keyOf_of_isQueued queued
    have same := sound.single other thread key ((sound.good other).holds runs isKey proper) held
    rw [same, isStack] at runs
    rcases List.mem_cons.mp runs with isDrain | below
    · cases isDrain
    · exact unheld (goodRest.holds below isKey proper)
  refine sound.answer isStack nofun tasks frames started (fun k => ?_) (fun k state isState => ?_)
    (fun other k holds => ?_) ownDone returned
  · by_cases same : k = key
    · subst same
      rw [isEmpty, Threads.pending, states, Function.update_self]
      rfl
    · rw [Threads.pending, states, Function.update_of_ne same, Threads.pending]
  · rw [states] at isState
    by_cases same : k = key
    · subst same
      rw [Function.update_self] at isState
      cases isState
    · rw [Function.update_of_ne same] at isState
      obtain ⟨running, other, holds⟩ := sound.draining k state isState
      refine ⟨running, other, (holds_popped isStack frames fun o isTop => ?_).mpr holds⟩
      cases isTop
      exact same rfl
  · have differs : k ≠ key := fun same => notKey other (same ▸ holds)
    rw [states, Function.update_of_ne differs]
    exact sound.stated other k (popped holds)

theorem Sound.finish (sound : Sound s) {outcome : ρ} (isStack : s.frames thread = .run n :: rest)
    (tasks : t.tasks = s.tasks.modify n fun task => { task with outcome := some outcome })
    (states : t.states = s.states) (frames : t.frames = Function.update s.frames thread rest)
    (started : t.started = s.started)
    (returned : t.returned = s.returned ∨ t.returned = s.returned ++ [(n, some outcome)]) :
    Sound t := by
  have good := sound.good thread
  rw [isStack] at good
  obtain ⟨⟨isStarted, isOpen, once, -, -⟩, goodRest⟩ := good
  have there := sound.bound n isStarted
  have atOther : ∀ {m : Nat}, m ≠ n → t.tasks[m]? = s.tasks[m]? := by
    intro m differs
    rw [tasks, List.getElem?_modify_ne _ _ (Ne.symm differs)]
  have here : t.tasks[n]? = some { s.tasks[n] with outcome := some outcome } := by
    rw [tasks, List.getElem?_modify_eq, List.getElem?_eq_getElem there]
    rfl
  have outcomes : ∀ {m : Nat}, m ≠ n → t.outcome m = s.outcome m := fun differs => by
    rw [Threads.outcome, Threads.outcome, atOther differs]
  have outcomeHere : t.outcome n = some outcome := by
    rw [Threads.outcome, here]
    rfl
  have grows : Grows s t := by
    refine ⟨fun m task isTask => ?_, fun m mem => started ▸ mem⟩
    by_cases same : m = n
    · subst same
      rw [List.getElem?_eq_getElem there, Option.some.injEq] at isTask
      subst isTask
      exact ⟨some outcome, here⟩
    · exact ⟨task.outcome, by rw [atOther same, isTask]⟩
  -- No thread has another frame of the task.
  have goods : ∀ {stack}, Good s stack → .run n ∉ stack → Good t stack := by
    intro stack good absent
    refine good.mono grows sound.bound fun m runs => ?_
    rw [outcomes fun same => absent (same ▸ runs)]
    exact (good.started runs).2
  have runsHere : .run n ∈ s.frames thread := isStack ▸ List.mem_cons_self
  have old : ∀ e ∈ s.returned, e.2 ≠ none ∧ t.outcome e.1 = e.2 := by
    intro e mem
    obtain ⟨ended, isOutcome⟩ := sound.answers e mem
    refine ⟨ended, ?_⟩
    have differs : e.1 ≠ n := fun same => ended (by rw [← isOutcome, same, isOpen])
    rw [outcomes differs]
    exact isOutcome
  refine sound.pop isStack grows (by rw [tasks, List.length_modify]) frames started (fun k => ?_)
    (goods goodRest once) (fun other differs => goods (sound.good other) fun runs =>
      differs (sound.distinct other thread n runs runsHere))
    (fun k state isState => ?_) (fun other k holds => ?_) (fun m mem isOpen' => ?_) (fun m done => ?_)
    (fun entry mem => ?_)
  · rw [Threads.pending, Threads.pending, states]
  · rw [states] at isState
    obtain ⟨running, other, holds⟩ := sound.draining k state isState
    exact ⟨running, other, (holds_popped isStack frames nofun).mpr holds⟩
  · rw [states]
    exact sound.stated other k ((holds_popped isStack frames nofun).mp holds)
  · have differs : m ≠ n := by
      rintro rfl
      rw [outcomeHere] at isOpen'
      cases isOpen'
    rw [outcomes differs] at isOpen'
    obtain ⟨other, runs⟩ := sound.ended m mem isOpen'
    refine ⟨other, mem_left isStack frames runs fun isTop => ?_⟩
    cases isTop
    exact differs rfl
  · by_cases same : m = n
    · exact same ▸ isStarted
    · rw [outcomes same] at done
      exact sound.begun m done
  · rcases returned with isSame | isMore
    · exact old entry (isSame ▸ mem)
    · rw [isMore, List.mem_append, List.mem_singleton] at mem
      rcases mem with mem | rfl
      · exact old entry mem
      · exact ⟨Option.some_ne_none _, outcomeHere⟩

theorem Sound.wake (sound : Sound s) {outcome : ρ} (isStack : s.frames thread = .wait n :: rest)
    (isDone : s.outcome n = some outcome) (tasks : t.tasks = s.tasks) (states : t.states = s.states)
    (frames : t.frames = Function.update s.frames thread rest) (started : t.started = s.started)
    (returned : t.returned = s.returned ++ [(n, some outcome)]) : Sound t := by
  refine sound.answer isStack nofun tasks frames started (fun k => ?_) (fun k state isState => ?_)
    (fun other k holds => ?_) (isDone ▸ Option.some_ne_none _) (isDone ▸ returned)
  · rw [Threads.pending, Threads.pending, states]
  · rw [states] at isState
    obtain ⟨running, other, holds⟩ := sound.draining k state isState
    exact ⟨running, other, (holds_popped isStack frames nofun).mpr holds⟩
  · rw [states]
    exact sound.stated other k ((holds_popped isStack frames nofun).mp holds)

variable (canonicalPathKey : String → String)

/-- A call that finds its key active in its own task keeps the queues sound. -/
theorem Sound.step (sound : Sound s) {action : QueueAction ρ} (own : Own canonicalPathKey s action)
    (steps : queueStep canonicalPathKey s action = some t) : Sound t := by
  cases action with
  | call thread key =>
    simp only [queueStep] at steps
    cases calls : caller (s.frames thread) with
    | none =>
      rw [calls] at steps
      cases steps
    | some parent =>
      rw [calls] at steps
      dsimp only at steps
      generalize isKey : canonicalPathKey key = k at steps own
      split at steps
      · rename_i direct
        cases steps
        refine sound.direct calls (fun proper => ?_) rfl rfl rfl rfl rfl
        have active := direct.resolve_left proper
        exact ⟨isActive_iff.mp active, isKey ▸ own (by rw [isKey]; exact active)⟩
      · rename_i queued
        rw [not_or] at queued
        have idle : ¬ Holds k (s.frames thread) := fun holds => queued.2 (isActive_iff.mpr holds)
        cases isState : s.states k with
        | none =>
          rw [isState] at steps
          cases steps
          refine sound.queue calls queued.1 idle (.inr ⟨rfl, isState⟩) rfl ?_ rfl rfl rfl
          rw [Threads.pending, isState]
          rfl
        | some state =>
          have running := (sound.draining k state isState).1
          rw [isState, Option.getD_some, if_pos running] at steps
          cases steps
          refine sound.queue calls queued.1 idle
            (.inl ⟨rfl, isState ▸ Option.some_ne_none _⟩) rfl ?_ rfl rfl rfl
          rw [Threads.pending, isState]
          rfl
  | next thread =>
    simp only [queueStep] at steps
    split at steps
    · rename_i key own rest isStack
      split at steps
      · rename_i n waiting running isState
        cases steps
        exact sound.take isStack isState rfl rfl (isStack ▸ rfl) rfl rfl
      · rename_i isNot
        cases steps
        refine sound.leave isStack ?_ rfl rfl rfl rfl rfl
        rw [Threads.pending]
        cases isState : s.states key with
        | none => rfl
        | some state =>
          obtain ⟨_ | ⟨n, waiting⟩, running⟩ := state
          · rfl
          · exact absurd isState (isNot n waiting running)
    · cases steps
  | finish thread outcome =>
    simp only [queueStep] at steps
    split at steps
    · rename_i n rest isStack
      cases steps
      refine sound.finish isStack rfl rfl rfl rfl ?_
      by_cases queued : (s.tasks[n]?).any Task.queued = true
      · exact .inl (if_pos queued)
      · exact .inr (if_neg queued)
    · cases steps
  | wake thread =>
    simp only [queueStep] at steps
    split at steps
    · rename_i n rest isStack
      split at steps
      · cases steps
      · rename_i outcome isDone
        cases steps
        exact sound.wake isStack isDone rfl rfl rfl rfl rfl
    · cases steps

theorem Ordered.above (orders : Ordered s) {m : Nat} (above : Above s n m) (begun : m ∈ s.started) :
    n ∈ s.started ∧ s.started.idxOf n < s.started.idxOf m := by
  induction above with
  | single isParent => exact ⟨(orders _ _ isParent).1, (orders _ _ isParent).2 begun⟩
  | tail _ isParent ih =>
    obtain ⟨between, before⟩ := orders _ _ isParent
    exact ⟨(ih between).1, Nat.lt_trans (ih between).2 (before begun)⟩

theorem Sound.exclusive (sound : Sound s) {a b m : Nat} (proper : key ≠ "")
    (runs : .run n ∈ s.frames a) (runs' : .run m ∈ s.frames b) (isKey : s.keyOf n = some key)
    (isKey' : s.keyOf m = some key) (before : s.started.idxOf n < s.started.idxOf m) :
    Above s n m := by
  have same : a = b := sound.single a b key ((sound.good a).holds runs isKey proper)
    ((sound.good b).holds runs' isKey' proper)
  subst same
  rcases (sound.good a).nested runs runs' isKey isKey' proper with rfl | above | above
  · exact absurd before (Nat.lt_irrefl _)
  · exact above
  · have after := (sound.orders.above above ((sound.good a).started runs).1).2
    omega

end

/-- After every run in which calls that find their key active are made by the caller's own tasks:
two tasks of a key are going on only where the later one was submitted from within the other, the
tasks of a key begin in the order in which they were queued, each once, a call comes to the outcome of
its task, and what waits in a queue has a thread that drains it. -/
theorem queue_exclusive {ρ : Type} {canonicalPathKey : String → String}
    {actions : List (QueueAction ρ)} {s : Threads ρ}
    (ran : run (queueStep canonicalPathKey) (.empty ρ) actions = some s)
    (own : Along (queueStep canonicalPathKey) (fun s action _ => Own canonicalPathKey s action)
      (.empty ρ) actions) :
    (∀ a b n m key, .run n ∈ s.frames a → .run m ∈ s.frames b → s.keyOf n = some key →
      s.keyOf m = some key → key ≠ "" → s.started.idxOf n < s.started.idxOf m → Above s n m) ∧
    (∀ key, s.started.filter (s.isQueued key) ++ s.pending key =
      (List.range s.tasks.length).filter (s.isQueued key)) ∧
    s.started.Nodup ∧
    (∀ entry ∈ s.returned, entry.1 ∈ s.started ∧ entry.2 ≠ none ∧ s.outcome entry.1 = entry.2) ∧
    ∀ key, s.pending key ≠ [] → ∃ thread own, .drain key own ∈ s.frames thread := by
  have sound : Sound s := run_invariant_along (fun _ _ _ sound steps own => sound.step _ own steps)
    (sound_empty ρ) own ran
  refine ⟨fun a b n m key runs runs' isKey isKey' proper before =>
    sound.exclusive proper runs runs' isKey isKey' before, sound.fifo, sound.once, ?_, ?_⟩
  · intro entry mem
    obtain ⟨done, isOutcome⟩ := sound.answers entry mem
    exact ⟨sound.begun entry.1 (isOutcome ▸ done), done, isOutcome⟩
  · intro key waits
    cases isState : s.states key with
    | none =>
      rw [Threads.pending, isState] at waits
      exact absurd rfl waits
    | some state =>
      obtain ⟨-, thread, held⟩ := sound.draining key state isState
      exact ⟨thread, held⟩

/-- A thread in a task of `a` drains `b`, for a task of its own that runs one of `a` at once, and then
for a task of another thread. -/
def nestedCalls : List (QueueAction Nat) :=
  [.call 1 "a", .next 1, .call 1 "b", .call 2 "b", .next 1, .call 1 "a"]

/-- The third task of `a` begins within the first one, as a task that was submitted from it. -/
theorem queue_exclusive_nested :
    ∃ s, run (queueStep id) (.empty Nat) nestedCalls = some s ∧
      s.frames 1 = [.run 3, .run 1, .drain "b" 1, .run 0, .drain "a" 0] ∧ Above s 0 3 := by
  have ends : (run (queueStep id) (.empty Nat) nestedCalls).any (fun s =>
      s.frames 1 = [.run 3, .run 1, .drain "b" 1, .run 0, .drain "a" 0] ∧
        s.keyOf 0 = some "a" ∧ s.keyOf 3 = some "a" ∧
        s.started.idxOf 0 < s.started.idxOf 3) = true := by
    decide +kernel
  obtain ⟨s, ran, holds⟩ := (Option.any_eq_true _ _).mp ends
  obtain ⟨isStack, isKey, isKey', before⟩ := of_decide_eq_true holds
  exact ⟨s, ran, isStack, (queue_exclusive ran (by decide +kernel)).1 1 1 0 3 "a" (by simp [isStack])
    (by simp [isStack]) isKey isKey' (by decide) before⟩

/-- The same, where the task of the other thread is the one that runs a task of `a`. -/
def foreignCalls : List (QueueAction Nat) :=
  [.call 1 "a", .next 1, .call 1 "b", .call 2 "b", .next 1, .finish 1 0, .next 1, .call 1 "a"]

/-- Two tasks of a key that are going on at once, the later one submitted from a task that another
thread has queued. -/
theorem queue_overlaps : ∃ s, run (queueStep id) (.empty Nat) foreignCalls = some s ∧
    ∃ n m, .run n ∈ s.frames 1 ∧ .run m ∈ s.frames 1 ∧ s.keyOf n = some "a" ∧
      s.keyOf m = some "a" ∧ s.started.idxOf n < s.started.idxOf m ∧ ¬ Above s n m := by
  have ends : (run (queueStep id) (.empty Nat) foreignCalls).any (fun s =>
      .run 0 ∈ s.frames 1 ∧ .run 3 ∈ s.frames 1 ∧ s.keyOf 0 = some "a" ∧ s.keyOf 3 = some "a" ∧
        s.started.idxOf 0 < s.started.idxOf 3 ∧ s.parentOf 3 = some 2 ∧ s.parentOf 2 = none) =
      true := by
    decide +kernel
  obtain ⟨s, ran, holds⟩ := (Option.any_eq_true _ _).mp ends
  obtain ⟨runs, runs', isKey, isKey', before, isParent, isRoot⟩ := of_decide_eq_true holds
  refine ⟨s, ran, 0, 3, runs, runs', isKey, isKey', before, fun above => ?_⟩
  obtain ⟨between, from_, last⟩ := Relation.TransGen.tail'_iff.mp above
  rw [isParent, Option.some.injEq] at last
  subst last
  rcases Relation.ReflTransGen.cases_tail from_ with same | ⟨_, -, link⟩
  · cases same
  · rw [isRoot] at link
    cases link

end AgentPark.Files
