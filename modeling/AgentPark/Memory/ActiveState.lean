import AgentPark.Memory.Record

/-!
# The index of the active memory

`.active-memory-state.json` keeps the number of records of the active `messages.jsonl`, the positions
of its user records, and the size and the modification time the file had when they were taken.

`ActiveMemoryState` carries what `_state_from_payload` checks, so every index that is saved passes
the check when it is read.
-/

namespace AgentPark.Memory

open Lib

/-- `str(record.get("role") or "").strip().lower() in {"user", "human"}`. -/
def Record.isUser (r : Record) : Bool := r.role == "user" || r.role == "human"

/-- The positions of the user records, counted from `i`. -/
def userStarts : Nat → List Record → List Nat
  | _, [] => []
  | i, r :: rs => if r.isUser then i :: userStarts (i + 1) rs else userStarts (i + 1) rs

theorem userStarts_bounds {i j : Nat} {rs : List Record} (mem : j ∈ userStarts i rs) :
    i ≤ j ∧ j < i + rs.length := by
  induction rs generalizing i with
  | nil => cases mem
  | cons r rs ih =>
    rw [userStarts] at mem
    rw [List.length_cons]
    split_ifs at mem
    · rcases List.mem_cons.mp mem with rfl | later
      · omega
      · have := ih later
        omega
    · have := ih mem
      omega

theorem userStarts_sorted (i : Nat) (rs : List Record) : (userStarts i rs).Pairwise (· < ·) := by
  induction rs generalizing i with
  | nil => exact List.Pairwise.nil
  | cons r rs ih =>
    rw [userStarts]
    split_ifs
    · refine List.pairwise_cons.mpr ⟨fun j mem => ?_, ih (i + 1)⟩
      have := userStarts_bounds mem
      omega
    · exact ih (i + 1)

theorem userStarts_append (i : Nat) (rs ss : List Record) :
    userStarts i (rs ++ ss) = userStarts i rs ++ userStarts (i + rs.length) ss := by
  induction rs generalizing i with
  | nil => rfl
  | cons r rs ih =>
    have shift : i + 1 + rs.length = i + (r :: rs).length := by
      rw [List.length_cons]
      omega
    rw [List.cons_append, userStarts, userStarts, ih, shift]
    split_ifs
    · rfl
    · rfl

/-- `ActiveMemoryState`, with the conditions `_state_from_payload` checks. -/
structure ActiveMemoryState where
  recordCount : Nat
  userStarts : List Nat
  messagesSize : Nat
  messagesMtimeNs : Nat
  bounded : ∀ i ∈ userStarts, i < recordCount
  sorted : userStarts.Pairwise (· < ·)
deriving DecidableEq

/-- `state_from_records`: `stat` is the size and the modification time of the file. -/
def stateFromRecords (records : List Record) (stat : Nat × Nat) : ActiveMemoryState where
  recordCount := records.length
  userStarts := userStarts 0 records
  messagesSize := stat.1
  messagesMtimeNs := stat.2
  bounded := fun i mem => by
    have := userStarts_bounds mem
    omega
  sorted := userStarts_sorted 0 records

/-- `advance_active_memory_state`. -/
def ActiveMemoryState.advance (state : ActiveMemoryState) (record : Record) (stat : Nat × Nat) :
    ActiveMemoryState where
  recordCount := state.recordCount + 1
  userStarts := state.userStarts ++ if record.isUser then [state.recordCount] else []
  messagesSize := stat.1
  messagesMtimeNs := stat.2
  bounded := fun i mem => by
    rcases List.mem_append.mp mem with old | new
    · have := state.bounded i old
      omega
    · split_ifs at new
      · rw [List.mem_singleton.mp new]
        omega
      · cases new
  sorted := by
    refine List.pairwise_append.mpr ⟨state.sorted, ?_, fun i old j new => ?_⟩
    · split_ifs
      · exact List.pairwise_singleton _ _
      · exact List.Pairwise.nil
    · split_ifs at new
      · rw [List.mem_singleton.mp new]
        exact state.bounded i old
      · cases new

theorem ActiveMemoryState.ext_data {s t : ActiveMemoryState} (count : s.recordCount = t.recordCount)
    (starts : s.userStarts = t.userStarts) (size : s.messagesSize = t.messagesSize)
    (mtime : s.messagesMtimeNs = t.messagesMtimeNs) : s = t := by
  cases s
  cases t
  simp_all

/-- Advancing agrees with taking the index again. -/
theorem advance_stateFromRecords (rs : List Record) (r : Record) (old new : Nat × Nat) :
    (stateFromRecords rs old).advance r new = stateFromRecords (rs ++ [r]) new := by
  apply ActiveMemoryState.ext_data
  · simp [ActiveMemoryState.advance, stateFromRecords]
  · simp only [ActiveMemoryState.advance, stateFromRecords, userStarts_append, userStarts,
      Nat.zero_add]
  · rfl
  · rfl

@[simp] theorem recordCount_stateFromRecords (rs : List Record) (stat : Nat × Nat) :
    (stateFromRecords rs stat).recordCount = rs.length := rfl

@[simp] theorem userStarts_stateFromRecords (rs : List Record) (stat : Nat × Nat) :
    (stateFromRecords rs stat).userStarts = userStarts 0 rs := rfl

/-- `_archive_end_for_complete_turns`: how many records at the front go to the archive. -/
def archiveEndForCompleteTurns (recordCount : Nat) (userStarts : List Nat) (maxEntries : Nat) :
    Nat :=
  let overflow := recordCount - max 1 maxEntries
  if overflow = 0 then 0
  else
    match userStarts.getLast? with
    | none => overflow
    | some latestTurnStart =>
      (userStarts.find? fun index => index > 0 && index ≥ overflow).getD latestTurnStart

/-! ### Where the archive ends -/

/-- `_archive_end_for_complete_turns` of an index; a limit below zero counts as zero. -/
def ActiveMemoryState.archiveEnd (state : ActiveMemoryState) (maxEntries : Int) : Nat :=
  archiveEndForCompleteTurns state.recordCount state.userStarts maxEntries.toNat

section
variable (state : ActiveMemoryState) (maxEntries : Int)

theorem le_latest {start latest : Nat} (mem : start ∈ state.userStarts)
    (isLatest : state.userStarts.getLast? = some latest) : start ≤ latest := by
  obtain ⟨front, same⟩ := List.getLast?_eq_some_iff.mp isLatest
  have sorted := state.sorted
  rw [same] at mem sorted
  rcases List.mem_append.mp mem with before | last
  · have less := (List.pairwise_append.mp sorted).2.2 start before latest (List.mem_singleton_self latest)
    omega
  · rw [List.mem_singleton.mp last]

theorem archiveEnd_cases :
    ((state.recordCount : Int) ≤ max 1 maxEntries ∧ state.archiveEnd maxEntries = 0) ∨
    (max 1 maxEntries < (state.recordCount : Int) ∧ state.userStarts = [] ∧
      (state.archiveEnd maxEntries : Int) = state.recordCount - max 1 maxEntries) ∨
    (max 1 maxEntries < (state.recordCount : Int) ∧ ∃ front back,
      state.userStarts = front ++ state.archiveEnd maxEntries :: back ∧
      0 < state.archiveEnd maxEntries ∧
      (state.recordCount : Int) - state.archiveEnd maxEntries ≤ max 1 maxEntries ∧
      ∀ start ∈ front, ¬ (0 < start ∧ (state.recordCount : Int) - start ≤ max 1 maxEntries)) ∨
    (max 1 maxEntries < (state.recordCount : Int) ∧
      state.userStarts.getLast? = some (state.archiveEnd maxEntries) ∧
      ∀ start ∈ state.userStarts, ¬ (0 < start ∧ (state.recordCount : Int) - start ≤ max 1 maxEntries)) := by
  have limit : ((max 1 maxEntries.toNat : Nat) : Int) = max 1 maxEntries := by omega
  have fitsIff : ∀ start, (decide (start > 0) && decide (start ≥ state.recordCount - max 1 maxEntries.toNat)) =
      true ↔ 0 < start ∧ (state.recordCount : Int) - start ≤ max 1 maxEntries := by
    intro start
    rw [Bool.and_eq_true, decide_eq_true_eq, decide_eq_true_eq]
    omega
  simp only [ActiveMemoryState.archiveEnd, archiveEndForCompleteTurns]
  by_cases fits : state.recordCount - max 1 maxEntries.toNat = 0
  · rw [if_pos fits]
    exact .inl ⟨by omega, rfl⟩
  · have exceeds : max 1 maxEntries < (state.recordCount : Int) := by omega
    rw [if_neg fits]
    cases last : state.userStarts.getLast? with
    | none =>
      refine .inr (.inl ⟨exceeds, List.getLast?_eq_none_iff.mp last, ?_⟩)
      change ((state.recordCount - max 1 maxEntries.toNat : Nat) : Int) = _
      omega
    | some latest =>
      dsimp only
      cases found : state.userStarts.find? fun index =>
          decide (index > 0) && decide (index ≥ state.recordCount - max 1 maxEntries.toNat) with
      | none =>
        refine .inr (.inr (.inr ⟨exceeds, rfl, fun start mem => ?_⟩))
        rw [← fitsIff]
        exact List.find?_eq_none.mp found start mem
      | some index =>
        obtain ⟨isFit, front, back, same, before⟩ := List.find?_eq_some_iff_append.mp found
        obtain ⟨positive, isFit⟩ := (fitsIff index).mp isFit
        refine .inr (.inr (.inl ⟨exceeds, front, back, same, positive, isFit, fun start mem => ?_⟩))
        have isNot := before start mem
        rw [Bool.not_eq_true'] at isNot
        rw [← fitsIff, isNot]
        exact Bool.false_ne_true

/-- Where the archive ends: in front of the last record, at no place inside a turn and not behind the
newest user record; and with more records than the limit at the first user record that leaves few
enough, if there is one. -/
theorem archiveEnd_boundary :
    (state.archiveEnd maxEntries < state.recordCount ∨
      state.recordCount = 0 ∧ state.archiveEnd maxEntries = 0) ∧
    (state.userStarts ≠ [] → state.archiveEnd maxEntries = 0 ∨ state.archiveEnd maxEntries ∈ state.userStarts) ∧
    (∀ latest, state.userStarts.getLast? = some latest → state.archiveEnd maxEntries ≤ latest) ∧
    ((state.recordCount : Int) ≤ max 1 maxEntries → state.archiveEnd maxEntries = 0) ∧
    (max 1 maxEntries < (state.recordCount : Int) → state.userStarts = [] →
      (state.archiveEnd maxEntries : Int) = state.recordCount - max 1 maxEntries) ∧
    (max 1 maxEntries < (state.recordCount : Int) →
      (∃ start ∈ state.userStarts, 0 < start ∧ (state.recordCount : Int) - start ≤ max 1 maxEntries) →
        state.archiveEnd maxEntries ∈ state.userStarts ∧ 0 < state.archiveEnd maxEntries ∧
        (state.recordCount : Int) - state.archiveEnd maxEntries ≤ max 1 maxEntries ∧
        ∀ start ∈ state.userStarts, 0 < start → (state.recordCount : Int) - start ≤ max 1 maxEntries →
          state.archiveEnd maxEntries ≤ start) := by
  rcases archiveEnd_cases state maxEntries with ⟨fits, isEnd⟩ | ⟨exceeds, none, isEnd⟩ |
    ⟨exceeds, front, back, same, positive, isFit, before⟩ | ⟨exceeds, isLast, noFit⟩
  · refine ⟨by omega, fun _ => .inl isEnd, fun latest _ => by omega, fun _ => isEnd, fun exceeds => by omega,
      fun exceeds => by omega⟩
  · refine ⟨by omega, fun some => absurd none some, fun latest isLatest => ?_, fun fits => by omega,
      fun _ _ => isEnd, fun _ fit => ?_⟩
    · rw [none] at isLatest
      cases isLatest
    · rw [none] at fit
      obtain ⟨_, mem, -⟩ := fit
      cases mem
  · have mem : state.archiveEnd maxEntries ∈ state.userStarts := by
      rw [same]
      exact List.mem_append_right _ List.mem_cons_self
    refine ⟨.inl (state.bounded _ mem), fun _ => .inr mem, fun latest => le_latest state mem,
      fun fits => by omega, fun _ none => absurd (none ▸ mem) List.not_mem_nil,
      fun _ _ => ⟨mem, positive, isFit, fun start isStart ahead startFits => ?_⟩⟩
    have sorted := state.sorted
    rw [same] at isStart sorted
    rcases List.mem_append.mp isStart with inFront | inBack
    · exact absurd ⟨ahead, startFits⟩ (before start inFront)
    · rcases List.mem_cons.mp inBack with here | later
      · omega
      · have less := (List.pairwise_cons.mp (List.pairwise_append.mp sorted).2.1).1 start later
        omega
  · have mem : state.archiveEnd maxEntries ∈ state.userStarts := List.mem_of_getLast? isLast
    refine ⟨.inl (state.bounded _ mem), fun _ => .inr mem, fun latest => le_latest state mem,
      fun fits => by omega, fun _ none => absurd (none ▸ mem) List.not_mem_nil, fun _ fit => ?_⟩
    obtain ⟨start, isStart, fit⟩ := fit
    exact absurd fit (noFit start isStart)

end

/-- Two records, the second of them a user's. -/
def twoRecords : ActiveMemoryState where
  recordCount := 2
  userStarts := [1]
  messagesSize := 0
  messagesMtimeNs := 0
  bounded := by decide
  sorted := by decide

/-- With few records nothing is archived, although the limit holds behind a user record too. -/
theorem archiveEnd_boundary_fails :
    ¬ ∀ (state : ActiveMemoryState) (maxEntries : Int),
      (state.archiveEnd maxEntries < state.recordCount ∨ state.userStarts = [] ∧
        (state.archiveEnd maxEntries : Int) ≤ state.recordCount - max 1 maxEntries) ∧
      (state.userStarts ≠ [] →
        state.archiveEnd maxEntries = 0 ∨ state.archiveEnd maxEntries ∈ state.userStarts) ∧
      (∀ latest, state.userStarts.getLast? = some latest → state.archiveEnd maxEntries ≤ latest) ∧
      ((∃ start ∈ state.userStarts, 0 < start ∧ (state.recordCount : Int) - start ≤ max 1 maxEntries) →
        state.archiveEnd maxEntries ∈ state.userStarts ∧ 0 < state.archiveEnd maxEntries ∧
        (state.recordCount : Int) - state.archiveEnd maxEntries ≤ max 1 maxEntries ∧
        ∀ start ∈ state.userStarts, 0 < start → (state.recordCount : Int) - start ≤ max 1 maxEntries →
          state.archiveEnd maxEntries ≤ start) := by
  intro claimed
  obtain ⟨-, -, -, least⟩ := claimed twoRecords 5
  exact absurd (least ⟨1, List.mem_cons_self, by decide, by decide⟩).2.1 (by decide)

end AgentPark.Memory
