import AgentPark.Providers.TokenWindow
import Mathlib.Algebra.Order.BigOperators.Group.List
import Mathlib.Order.Bounds.Basic
import Mathlib.Tactic.Ring

/-!
# What a rolling window answers

The window drops what is too old only when it is called, and finds the waiting time from partial
sums.  This module says what its answers are in terms of all that was recorded, for every order of
calls whose times do not go back.

* `isLeast_availableIn`: the loop over the partial sums finds the first moment below the limit.
-/

namespace AgentPark.Providers

inductive WindowCall where
  | record (completedAt : ℚ) (inputTokens outputTokens : Int)
  | usage (now : ℚ)
  | nextAvailable (now : ℚ) (limit : Option ℕ+)

namespace WindowCall

def time : WindowCall → ℚ
  | record completedAt _ _ => completedAt
  | usage now => now
  | nextAvailable now _ => now

/-- What a call records; a negative count is none. -/
def entry : WindowCall → Option TokenEntry
  | record completedAt inputTokens outputTokens =>
    some ⟨completedAt, inputTokens.toNat, outputTokens.toNat⟩
  | usage _ => none
  | nextAvailable _ _ => none

end WindowCall

/-- What the calls recorded. -/
def recordedEntries (calls : List WindowCall) : List TokenEntry := calls.filterMap WindowCall.entry

namespace TokenWindow

/-- A window after a call. -/
def after (windowSeconds : ℚ) (window : TokenWindow) : WindowCall → TokenWindow
  | .record completedAt inputTokens outputTokens =>
    (window.record completedAt inputTokens outputTokens windowSeconds).2
  | .usage now => (window.usage now windowSeconds).2
  | .nextAvailable now limit => (window.nextAvailable now windowSeconds limit).2

/-- A new window after calls. -/
def run (windowSeconds : ℚ) (calls : List WindowCall) : TokenWindow :=
  calls.foldl (after windowSeconds) {}

end TokenWindow

/-- The tokens of the entries. -/
def usageOf (entries : List TokenEntry) : TokenUsage :=
  ⟨(entries.map TokenEntry.inputTokens).sum, (entries.map TokenEntry.outputTokens).sum⟩

/-- The tokens of the entries after a time. -/
def usageSince (entries : List TokenEntry) (time : ℚ) : TokenUsage :=
  usageOf (entries.filter fun entry => time < entry.completedAt)

theorem usageSince_append (left right : List TokenEntry) (time : ℚ) :
    usageSince (left ++ right) time =
      ⟨(usageSince left time).inputTokens + (usageSince right time).inputTokens,
        (usageSince left time).outputTokens + (usageSince right time).outputTokens⟩ := by
  unfold usageSince usageOf
  rw [List.filter_append, List.map_append, List.sum_append, List.map_append, List.sum_append]

theorem totalTokens_usageOf (entries : List TokenEntry) :
    (usageOf entries).totalTokens = tokensOf entries := by
  unfold usageOf TokenUsage.totalTokens
  rw [← List.sum_map_add]
  rfl

theorem totalTokens_usageSince (entries : List TokenEntry) (time : ℚ) :
    (usageSince entries time).totalTokens = tokensSince entries time := totalTokens_usageOf _

/-! ### A window and the calls behind it -/

/-- Of the last seconds, the window has what was recorded. -/
structure Follows (windowSeconds : ℚ) (window : TokenWindow) (usages : List TokenEntry) (now : ℚ) :
    Prop where
  exact : window.Exact
  last : ∀ entry ∈ window.entries, entry.completedAt ≤ now
  same : ∀ time, now - safeWindow windowSeconds ≤ time →
    usageSince window.entries time = usageSince usages time

namespace Follows

variable {windowSeconds now : ℚ} {window : TokenWindow} {usages : List TokenEntry}

theorem empty (windowSeconds now : ℚ) : Follows windowSeconds {} [] now where
  exact := TokenWindow.exact_empty
  last _ mem := nomatch mem
  same _ _ := rfl

theorem later (follows : Follows windowSeconds window usages now) {moment : ℚ} (le : now ≤ moment) :
    Follows windowSeconds window usages moment where
  exact := follows.exact
  last entry mem := (follows.last entry mem).trans le
  same time since := follows.same time (by linarith)

theorem evict (follows : Follows windowSeconds window usages now) :
    Follows windowSeconds (window.evictExpired now windowSeconds) usages now := by
  have entries := @TokenWindow.Exact.entries_evict _ now windowSeconds follows.exact
  refine ⟨follows.exact.evict, ?_, ?_⟩
  · intro entry mem
    rw [entries] at mem
    exact follows.last entry (List.mem_filter.mp mem).1
  · intro time since
    rw [← follows.same time since, entries, usageSince, usageSince, List.filter_filter]
    refine congrArg usageOf (List.filter_congr fun entry _ => ?_)
    rw [Bool.and_eq_left_iff_imp]
    intro late
    have late := of_decide_eq_true late
    exact decide_eq_true (by linarith)

theorem record (follows : Follows windowSeconds window usages now) (inputTokens outputTokens : Int) :
    Follows windowSeconds (window.record now inputTokens outputTokens windowSeconds).2
      (usages ++ [⟨now, inputTokens.toNat, outputTokens.toNat⟩]) now := by
  have evicted := follows.evict
  refine ⟨follows.exact.record follows.last, ?_, ?_⟩
  · unfold TokenWindow.record
    dsimp only
    split
    · intro entry mem
      rcases List.mem_append.mp mem with old | new
      · exact evicted.last entry old
      · rw [List.mem_singleton.mp new]
    · exact evicted.last
  · intro time since
    unfold TokenWindow.record
    dsimp only
    split
    · dsimp only
      rw [usageSince_append, usageSince_append, evicted.same time since]
    · rename_i nothing
      -- what is not recorded would add nothing
      have none : usageSince [⟨now, inputTokens.toNat, outputTokens.toNat⟩] time = ⟨0, 0⟩ := by
        have input : inputTokens.toNat = 0 := by omega
        have output : outputTokens.toNat = 0 := by omega
        rw [input, output, usageSince, List.filter_cons]
        split
        · rfl
        · rfl
      rw [usageSince_append, none]
      exact evicted.same time since

theorem after (follows : Follows windowSeconds window usages now) {call : WindowCall}
    (le : now ≤ call.time) :
    Follows windowSeconds (window.after windowSeconds call) (usages ++ call.entry.toList) call.time := by
  have here := follows.later le
  cases call with
  | record completedAt inputTokens outputTokens => exact here.record inputTokens outputTokens
  | usage moment =>
    rw [WindowCall.entry, Option.toList_none, List.append_nil]
    exact here.evict
  | nextAvailable moment limit =>
    rw [WindowCall.entry, Option.toList_none, List.append_nil, TokenWindow.after,
      TokenWindow.nextAvailable_snd]
    exact here.evict

theorem run {calls : List WindowCall} (follows : Follows windowSeconds window usages now)
    (ordered : (now :: calls.map WindowCall.time).Pairwise (· ≤ ·)) {moment : ℚ}
    (behind : ∀ time ∈ now :: calls.map WindowCall.time, time ≤ moment) :
    Follows windowSeconds (calls.foldl (TokenWindow.after windowSeconds) window)
      (usages ++ recordedEntries calls) moment := by
  induction calls generalizing window usages now with
  | nil =>
    rw [recordedEntries, List.filterMap_nil, List.append_nil]
    exact follows.later (behind now List.mem_cons_self)
  | cons call calls ih =>
    rw [List.map_cons, List.pairwise_cons] at ordered
    have step := follows.after (ordered.1 _ List.mem_cons_self)
    have rest := ih step ordered.2 fun time mem => behind time (List.mem_cons_of_mem _ mem)
    have split : recordedEntries (call :: calls) = call.entry.toList ++ recordedEntries calls := by
      unfold recordedEntries
      cases entry : call.entry with
      | none => rw [List.filterMap_cons_none entry]; rfl
      | some _ => rw [List.filterMap_cons_some entry]; rfl
    rw [split, ← List.append_assoc]
    exact rest

theorem usage_eq (follows : Follows windowSeconds window usages now) :
    (window.usage now windowSeconds).1 = usageSince usages (now - safeWindow windowSeconds) := by
  have evicted := @TokenWindow.Exact.evict _ now windowSeconds follows.exact
  rw [← follows.same _ le_rfl, usageSince, ← follows.exact.entries_evict, usageOf, ← evicted.input,
    ← evicted.output]
  rfl

end Follows

/-! ### The waiting time -/

theorem availableIn_eq (now safeWindowSeconds : ℚ) {limit : Int} (positive : 0 < limit)
    {entries : List TokenEntry} (sorted : (entries.map TokenEntry.completedAt).Pairwise (· ≤ ·))
    (full : limit ≤ tokensOf entries) :
    ∃ entry ∈ entries,
      TokenWindow.availableIn now safeWindowSeconds limit entries (tokensOf entries) =
        max 0 (entry.completedAt + safeWindowSeconds - now) ∧
      (tokensSince entries entry.completedAt : Int) < limit ∧
      ∀ time < entry.completedAt, limit ≤ tokensSince entries time := by
  induction entries with
  | nil =>
    rw [tokensOf_nil] at full
    omega
  | cons entry entries ih =>
    rw [List.map_cons, List.pairwise_cons] at sorted
    obtain ⟨first, rest⟩ := sorted
    have remaining : ((tokensOf (entry :: entries) : Nat) : Int) -
        (entry.inputTokens + entry.outputTokens) = tokensOf entries := by
      rw [tokensOf_cons, TokenEntry.tokens]
      omega
    have fewer (time : ℚ) : tokensSince entries time ≤ tokensOf entries :=
      List.Sublist.sum_le_sum (List.filter_sublist.map _) fun _ _ => Nat.zero_le _
    rw [TokenWindow.availableIn, remaining]
    split
    · rename_i below
      refine ⟨entry, List.mem_cons_self, rfl, ?_, ?_⟩
      · have dropped : tokensSince (entry :: entries) entry.completedAt =
            tokensSince entries entry.completedAt := by
          rw [tokensSince, List.filter_cons_of_neg (by simp), tokensSince]
        have le := fewer entry.completedAt
        rw [dropped]
        omega
      · intro time earlier
        rw [tokensSince_of_forall_lt]
        · exact full
        · intro other mem
          rcases List.mem_cons.mp mem with rfl | behind
          · exact earlier
          · exact earlier.trans_le (first _ (List.mem_map_of_mem behind))
    · rename_i reached
      obtain ⟨last, mem, eq, below, above⟩ := ih rest (not_lt.mp reached)
      have le : entry.completedAt ≤ last.completedAt := first _ (List.mem_map_of_mem mem)
      refine ⟨last, List.mem_cons_of_mem _ mem, eq, ?_, ?_⟩
      · rw [tokensSince, List.filter_cons_of_neg (by simpa using le)]
        exact below
      · intro time earlier
        have kept := above time earlier
        have more : tokensSince entries time ≤ tokensSince (entry :: entries) time :=
          List.Sublist.sum_le_sum
            (((List.sublist_cons_self entry entries).filter _).map _) fun _ _ => Nat.zero_le _
        omega

/-- The moments at which the entries are below a limit. -/
def Available (windowSeconds : ℚ) (entries : List TokenEntry) (now : ℚ) (limit : ℕ+) : Set ℚ :=
  {wait | 0 ≤ wait ∧
    (usageSince entries (now + wait - safeWindow windowSeconds)).totalTokens < limit}

theorem Follows.isLeast_nextAvailable {windowSeconds now : ℚ} {window : TokenWindow}
    {usages : List TokenEntry} (follows : Follows windowSeconds window usages now) (limit : ℕ+) :
    IsLeast (Available windowSeconds usages now limit)
      (window.nextAvailable now windowSeconds (some limit)).1 := by
  have evicted := follows.evict
  have kept := @TokenWindow.Exact.entries_evict _ now windowSeconds follows.exact
  let entries := (window.evictExpired now windowSeconds).entries
  -- from now on, the entries that are left are what counts
  have counts (wait : ℚ) (later : 0 ≤ wait) :
      (usageSince usages (now + wait - safeWindow windowSeconds)).totalTokens =
        tokensSince entries (now + wait - safeWindow windowSeconds) := by
    rw [← evicted.same _ (by linarith), totalTokens_usageSince]
  have all : tokensSince entries (now - safeWindow windowSeconds) = tokensOf entries := by
    apply tokensSince_of_forall_lt
    intro entry mem
    change entry ∈ (window.evictExpired now windowSeconds).entries at mem
    rw [kept] at mem
    exact of_decide_eq_true (List.mem_filter.mp mem).2
  have total : (window.usage now windowSeconds).1.totalTokens = tokensOf entries :=
    evicted.exact.total
  have answer : (window.nextAvailable now windowSeconds (some limit)).1 =
      if tokensOf entries < (limit : Nat) then 0
      else TokenWindow.availableIn now (safeWindow windowSeconds) limit entries (tokensOf entries) := by
    rw [← total]
    unfold TokenWindow.nextAvailable
    dsimp only
    split
    · rfl
    · rfl
  rw [answer]
  split
  · rename_i below
    refine ⟨⟨le_rfl, ?_⟩, fun wait available => available.1⟩
    rw [counts 0 le_rfl, add_zero, all]
    exact below
  · rename_i full
    have positiveLimit : (0 : Int) < (limit : Nat) := by exact_mod_cast limit.pos
    obtain ⟨entry, mem, eq, below, above⟩ := availableIn_eq now (safeWindow windowSeconds)
      positiveLimit
      evicted.exact.sorted (by exact_mod_cast not_lt.mp full)
    have fresh : now - safeWindow windowSeconds < entry.completedAt := by
      rw [kept] at mem
      exact of_decide_eq_true (List.mem_filter.mp mem).2
    have positive : 0 ≤ entry.completedAt + safeWindow windowSeconds - now := by linarith
    rw [eq, max_eq_right positive]
    constructor
    · refine ⟨positive, ?_⟩
      have moment : now + (entry.completedAt + safeWindow windowSeconds - now) -
          safeWindow windowSeconds = entry.completedAt := by ring
      rw [counts _ positive, moment]
      exact_mod_cast below
    · rintro wait ⟨later, available⟩
      rw [counts wait later] at available
      by_contra early
      have reached : ((limit : Nat) : Int) ≤
          tokensSince entries (now + wait - safeWindow windowSeconds) :=
        above _ (by linarith [not_le.mp early])
      omega

/-! ### Every run -/

theorem run_follows (windowSeconds : ℚ) {calls : List WindowCall}
    (ordered : (calls.map WindowCall.time).Pairwise (· ≤ ·)) {now : ℚ}
    (behind : ∀ call ∈ calls, call.time ≤ now) :
    Follows windowSeconds (TokenWindow.run windowSeconds calls) (recordedEntries calls) now := by
  cases calls with
  | nil => exact Follows.empty windowSeconds now
  | cons call calls =>
    have times : ∀ time ∈ call.time :: (call :: calls).map WindowCall.time, time ≤ now := by
      rw [List.forall_mem_cons, List.forall_mem_map]
      exact ⟨behind call List.mem_cons_self, behind⟩
    rw [List.map_cons, List.pairwise_cons] at ordered
    have whole : (call.time :: (call :: calls).map WindowCall.time).Pairwise (· ≤ ·) := by
      rw [List.map_cons, List.pairwise_cons, List.forall_mem_cons, List.pairwise_cons]
      exact ⟨⟨le_rfl, ordered.1⟩, ordered⟩
    have follows := (Follows.empty windowSeconds call.time).run whole times
    rwa [List.nil_append] at follows

/-- After calls whose times do not go back, `usage` answers with what was recorded after
`now - window`, and `next_available_in_seconds` with the least wait after which `usage` is below the
limit.  The window is `max(0.001, window_seconds)`. -/
theorem window_exact (windowSeconds : ℚ) (calls : List WindowCall)
    (ordered : (calls.map WindowCall.time).Pairwise (· ≤ ·)) (now : ℚ)
    (behind : ∀ call ∈ calls, call.time ≤ now) (limit : ℕ+) :
    ((TokenWindow.run windowSeconds calls).usage now windowSeconds).1 =
      usageSince (recordedEntries calls) (now - safeWindow windowSeconds) ∧
    IsLeast
      {wait : ℚ | 0 ≤ wait ∧
        ((((TokenWindow.run windowSeconds calls).nextAvailable now windowSeconds (some limit)).2.usage
          (now + wait) windowSeconds).1.totalTokens < limit)}
      ((TokenWindow.run windowSeconds calls).nextAvailable now windowSeconds (some limit)).1 := by
  have follows := run_follows windowSeconds ordered behind
  refine ⟨follows.usage_eq, ?_⟩
  have same : {wait : ℚ | 0 ≤ wait ∧
      ((((TokenWindow.run windowSeconds calls).nextAvailable now windowSeconds (some limit)).2.usage
        (now + wait) windowSeconds).1.totalTokens < limit)} =
      Available windowSeconds (recordedEntries calls) now limit := by
    ext wait
    refine and_congr_right fun later => ?_
    have waited := follows.evict.later (show now ≤ now + wait by linarith)
    rw [TokenWindow.nextAvailable_snd, waited.usage_eq]
  rw [same]
  exact follows.isLeast_nextAvailable limit

/-- Two records of which the first fills the window: it is below the limit when that one is gone. -/
theorem window_twoRecords :
    let window := TokenWindow.run 60 [.record 0 600 0, .record 10 300 200, .usage 20]
    (window.usage 30 60).1 = ⟨900, 200⟩ ∧
    IsLeast
      {wait : ℚ | 0 ≤ wait ∧
        ((window.nextAvailable 30 60 (some 1000)).2.usage (30 + wait) 60).1.totalTokens <
          ((1000 : ℕ+) : ℕ)}
      30 := by
  have exact := window_exact 60 [.record 0 600 0, .record 10 300 200, .usage 20]
    (by decide +kernel) 30 (by decide +kernel) 1000
  have sum : usageSince (recordedEntries [.record 0 600 0, .record 10 300 200, .usage 20])
      (30 - safeWindow 60) = ⟨900, 200⟩ := by decide +kernel
  have wait : ((TokenWindow.run 60 [.record 0 600 0, .record 10 300 200, .usage 20]).nextAvailable 30
      60 (some 1000)).1 = 30 := by decide +kernel
  rw [sum, wait] at exact
  exact exact

/-- With a window below a millisecond, `usage` still counts what is older than the window. -/
theorem window_shorter :
    ((TokenWindow.run (1 / 2000) [.record 0 10 0]).usage (8 / 10000) (1 / 2000)).1 = ⟨10, 0⟩ ∧
    usageSince (recordedEntries [.record 0 10 0]) (8 / 10000 - 1 / 2000) = ⟨0, 0⟩ := by
  decide +kernel

end AgentPark.Providers
