import Mathlib.Algebra.Order.Field.Rat
import Mathlib.Algebra.BigOperators.Group.List.Basic
import Mathlib.Data.PNat.Basic
import Mathlib.Tactic.Linarith

/-!
# The rolling window of tokens

`ProviderRollingTokenWindow` keeps the token usage of the last seconds: entries in the order of
their times, and the sums of their tokens in two counters.

* `Exact since w` says what a window is: its entries are in order and its counters are their sums.
* `Tracks w usages now` relates a window to all that was ever recorded: of the last seconds it has
  the same tokens.  `Tracks.available_iff` is what the window is asked for.
-/

namespace AgentPark.Providers

/-- `ProviderTokenWindowUsage` -/
structure TokenUsage where
  inputTokens : Nat := 0
  outputTokens : Nat := 0
deriving DecidableEq

/-- `ProviderTokenWindowUsage.total_tokens` -/
def TokenUsage.totalTokens (usage : TokenUsage) : Nat := usage.inputTokens + usage.outputTokens

/-- `_ProviderTokenUsageEntry` -/
structure TokenEntry where
  completedAt : ℚ
  inputTokens : Nat
  outputTokens : Nat
deriving DecidableEq

def TokenEntry.tokens (entry : TokenEntry) : Nat := entry.inputTokens + entry.outputTokens

/-- `ProviderRollingTokenWindow` -/
structure TokenWindow where
  entries : List TokenEntry := []
  inputTokens : Nat := 0
  outputTokens : Nat := 0
deriving DecidableEq

/-- `max(0.001, float(window_seconds))` -/
def safeWindow (windowSeconds : ℚ) : ℚ := max (1 / 1000) windowSeconds

/-- The loop of `_evict_expired`. -/
def evictUntil (cutoff : ℚ) : List TokenEntry → Nat → Nat → TokenWindow
  | [], inputTokens, outputTokens => ⟨[], inputTokens, outputTokens⟩
  | entry :: entries, inputTokens, outputTokens =>
    if entry.completedAt ≤ cutoff then
      evictUntil cutoff entries (inputTokens - entry.inputTokens)
        (outputTokens - entry.outputTokens)
    else ⟨entry :: entries, inputTokens, outputTokens⟩

namespace TokenWindow

/-- `_evict_expired` -/
def evictExpired (window : TokenWindow) (now windowSeconds : ℚ) : TokenWindow :=
  evictUntil (now - safeWindow windowSeconds) window.entries window.inputTokens
    window.outputTokens

/-- `_usage` -/
def counted (window : TokenWindow) : TokenUsage := ⟨window.inputTokens, window.outputTokens⟩

/-- `record` -/
def record (window : TokenWindow) (completedAt : ℚ) (inputTokens outputTokens : Int)
    (windowSeconds : ℚ) : TokenUsage × TokenWindow :=
  let window := window.evictExpired completedAt windowSeconds
  let normalizedInput := inputTokens.toNat
  let normalizedOutput := outputTokens.toNat
  let window :=
    if 0 < normalizedInput ∨ 0 < normalizedOutput then
      { entries := window.entries ++ [⟨completedAt, normalizedInput, normalizedOutput⟩]
        inputTokens := window.inputTokens + normalizedInput
        outputTokens := window.outputTokens + normalizedOutput }
    else window
  (window.counted, window)

/-- `usage` -/
def usage (window : TokenWindow) (now windowSeconds : ℚ) : TokenUsage × TokenWindow :=
  let window := window.evictExpired now windowSeconds
  (window.counted, window)

/-- The loop of `next_available_in_seconds`. -/
def availableIn (now safeWindowSeconds : ℚ) (limit : Int) : List TokenEntry → Int → ℚ
  | [], _ => 0
  | entry :: entries, remaining =>
    let remaining := remaining - (entry.inputTokens + entry.outputTokens)
    if remaining < limit then max 0 (entry.completedAt + safeWindowSeconds - now)
    else availableIn now safeWindowSeconds limit entries remaining

/-- `next_available_in_seconds` -/
def nextAvailable (window : TokenWindow) (now windowSeconds : ℚ) (limit : Option ℕ+) :
    ℚ × TokenWindow :=
  let (usage, window) := window.usage now windowSeconds
  match limit with
  | none => (0, window)
  | some limit =>
    if usage.totalTokens < limit then (0, window)
    else
      (availableIn now (safeWindow windowSeconds) limit window.entries usage.totalTokens, window)

end TokenWindow

/-! ### What a window is -/

def tokensOf (entries : List TokenEntry) : Nat := (entries.map TokenEntry.tokens).sum

/-- The tokens of the entries after a time. -/
def tokensSince (entries : List TokenEntry) (time : ℚ) : Nat :=
  tokensOf (entries.filter fun entry => time < entry.completedAt)

@[simp] theorem tokensOf_nil : tokensOf [] = 0 := rfl

@[simp] theorem tokensOf_cons (entry : TokenEntry) (entries : List TokenEntry) :
    tokensOf (entry :: entries) = entry.tokens + tokensOf entries := by
  rw [tokensOf, List.map_cons, List.sum_cons, tokensOf]

theorem tokensOf_append (left right : List TokenEntry) :
    tokensOf (left ++ right) = tokensOf left + tokensOf right := by
  rw [tokensOf, List.map_append, List.sum_append, tokensOf, tokensOf]

theorem tokensSince_append (left right : List TokenEntry) (time : ℚ) :
    tokensSince (left ++ right) time = tokensSince left time + tokensSince right time := by
  rw [tokensSince, List.filter_append, tokensOf_append, tokensSince, tokensSince]

theorem tokensSince_of_forall_lt {entries : List TokenEntry} {time : ℚ}
    (after : ∀ entry ∈ entries, time < entry.completedAt) :
    tokensSince entries time = tokensOf entries := by
  rw [tokensSince, List.filter_eq_self.mpr]
  intro entry mem
  exact decide_eq_true (after entry mem)

/-- The entries are in order and the counters are their sums. -/
structure TokenWindow.Exact (window : TokenWindow) : Prop where
  sorted : (window.entries.map TokenEntry.completedAt).Pairwise (· ≤ ·)
  input : window.inputTokens = (window.entries.map TokenEntry.inputTokens).sum
  output : window.outputTokens = (window.entries.map TokenEntry.outputTokens).sum

theorem TokenWindow.exact_empty : ({} : TokenWindow).Exact := ⟨List.Pairwise.nil, rfl, rfl⟩

theorem TokenWindow.Exact.total {window : TokenWindow} (exact : window.Exact) :
    window.counted.totalTokens = tokensOf window.entries := by
  unfold TokenWindow.counted TokenUsage.totalTokens
  rw [exact.input, exact.output, ← List.sum_map_add]
  rfl

theorem evictUntil_eq {cutoff : ℚ} : ∀ {entries : List TokenEntry},
    (entries.map TokenEntry.completedAt).Pairwise (· ≤ ·) →
      evictUntil cutoff entries (entries.map TokenEntry.inputTokens).sum
        (entries.map TokenEntry.outputTokens).sum =
      ⟨entries.filter fun entry => cutoff < entry.completedAt,
        ((entries.filter fun entry => cutoff < entry.completedAt).map
          TokenEntry.inputTokens).sum,
        ((entries.filter fun entry => cutoff < entry.completedAt).map
          TokenEntry.outputTokens).sum⟩
  | [], _ => rfl
  | entry :: entries, sorted => by
    rw [List.map_cons, List.pairwise_cons] at sorted
    obtain ⟨first, rest⟩ := sorted
    rw [evictUntil]
    split
    · rename_i old
      rw [List.map_cons, List.sum_cons, List.map_cons, List.sum_cons, Nat.add_sub_cancel_left,
        Nat.add_sub_cancel_left, evictUntil_eq rest,
        List.filter_cons_of_neg (by simpa using old)]
    · rename_i fresh
      have all : (entry :: entries).filter (fun e => cutoff < e.completedAt) =
          entry :: entries := by
        rw [List.filter_eq_self]
        intro other mem
        rw [decide_eq_true_iff]
        rcases List.mem_cons.mp mem with rfl | mem
        · exact not_le.mp fresh
        · exact lt_of_lt_of_le (not_le.mp fresh) (first _ (List.mem_map_of_mem mem))
      rw [all]

namespace TokenWindow

variable {window : TokenWindow} {now windowSeconds : ℚ}

theorem Exact.entries_evict (exact : window.Exact) :
    (window.evictExpired now windowSeconds).entries =
      window.entries.filter fun entry => now - safeWindow windowSeconds < entry.completedAt := by
  rw [evictExpired, exact.input, exact.output, evictUntil_eq exact.sorted]

theorem Exact.evict (exact : window.Exact) : (window.evictExpired now windowSeconds).Exact := by
  rw [evictExpired, exact.input, exact.output, evictUntil_eq exact.sorted]
  refine ⟨?_, rfl, rfl⟩
  exact exact.sorted.sublist (List.filter_sublist.map _)

theorem Exact.record (exact : window.Exact) {inputTokens outputTokens : Int}
    (last : ∀ entry ∈ window.entries, entry.completedAt ≤ now) :
    (window.record now inputTokens outputTokens windowSeconds).2.Exact := by
  have evicted := @Exact.evict _ now windowSeconds exact
  unfold TokenWindow.record
  dsimp only
  split
  · refine ⟨?_, ?_, ?_⟩
    · rw [List.map_append, List.pairwise_append]
      refine ⟨evicted.sorted, List.pairwise_singleton _ _, ?_⟩
      intro time mem time' isNow
      obtain ⟨entry, stays, rfl⟩ := List.mem_map.mp mem
      rw [exact.entries_evict] at stays
      rw [List.map_singleton, List.mem_singleton] at isNow
      rw [isNow]
      exact last entry (List.mem_filter.mp stays).1
    · dsimp only
      rw [List.map_append, List.sum_append, ← evicted.input, List.map_singleton,
        List.sum_singleton]
    · dsimp only
      rw [List.map_append, List.sum_append, ← evicted.output, List.map_singleton,
        List.sum_singleton]
  · exact evicted

theorem availableIn_pos {safeWindowSeconds : ℚ} {limit : Int} (positive : 0 < limit) :
    ∀ {entries : List TokenEntry}, limit ≤ tokensOf entries →
      (∀ entry ∈ entries, now - safeWindowSeconds < entry.completedAt) →
      0 < availableIn now safeWindowSeconds limit entries (tokensOf entries)
  | [], full, _ => by
    rw [tokensOf_nil] at full
    omega
  | entry :: entries, full, fresh => by
    have rest : ((tokensOf (entry :: entries) : Nat) : Int) -
        (entry.inputTokens + entry.outputTokens) = tokensOf entries := by
      rw [tokensOf_cons, TokenEntry.tokens]
      omega
    rw [availableIn, rest]
    split
    · have later := fresh entry List.mem_cons_self
      exact lt_max_of_lt_right (by linarith)
    · rename_i full
      exact availableIn_pos positive (not_lt.mp full)
        fun other mem => fresh other (List.mem_cons_of_mem entry mem)

theorem Exact.nextAvailable_pos_iff (exact : window.Exact) (limit : ℕ+) :
    0 < (window.nextAvailable now windowSeconds (some limit)).1 ↔
      (limit : Nat) ≤ tokensSince window.entries (now - safeWindow windowSeconds) := by
  have evicted := @Exact.evict _ now windowSeconds exact
  have entries := @Exact.entries_evict _ now windowSeconds exact
  have total : (window.evictExpired now windowSeconds).counted.totalTokens =
      tokensSince window.entries (now - safeWindow windowSeconds) := by
    rw [evicted.total, entries, tokensSince]
  unfold TokenWindow.nextAvailable TokenWindow.usage
  dsimp only
  split
  · rename_i below
    rw [total] at below
    exact iff_of_false (lt_irrefl 0) (not_le.mpr below)
  · rename_i full
    refine iff_of_true ?_ (by rw [← total]; exact not_lt.mp full)
    rw [evicted.total] at full ⊢
    refine availableIn_pos (by exact_mod_cast limit.pos) (by exact_mod_cast not_lt.mp full) ?_
    intro entry mem
    rw [entries] at mem
    exact of_decide_eq_true (List.mem_filter.mp mem).2

theorem nextAvailable_snd (limit : Option ℕ+) :
    (window.nextAvailable now windowSeconds limit).2 = window.evictExpired now windowSeconds := by
  unfold TokenWindow.nextAvailable TokenWindow.usage
  dsimp only
  split
  · rfl
  · split
    · rfl
    · rfl

end TokenWindow

/-! ### A window and what was recorded -/

/-- Of the last seconds, the window has the tokens of all that was recorded. -/
structure Tracks (window : TokenWindow) (usages : List TokenEntry) (now windowSeconds : ℚ) :
    Prop where
  exact : window.Exact
  last : ∀ entry ∈ window.entries, entry.completedAt ≤ now
  same : ∀ time, now - safeWindow windowSeconds ≤ time →
    tokensSince window.entries time = tokensSince usages time

theorem tracks_empty (now windowSeconds : ℚ) : Tracks {} [] now windowSeconds where
  exact := TokenWindow.exact_empty
  last _ mem := nomatch mem
  same _ _ := rfl

namespace Tracks

variable {window : TokenWindow} {usages : List TokenEntry} {now windowSeconds : ℚ}

theorem advance (tracks : Tracks window usages now windowSeconds) {later : ℚ}
    (le : now ≤ later) : Tracks window usages later windowSeconds where
  exact := tracks.exact
  last entry mem := (tracks.last entry mem).trans le
  same time since := tracks.same time (by linarith)

theorem evict (tracks : Tracks window usages now windowSeconds) {earlier : ℚ}
    (le : earlier ≤ now) : Tracks (window.evictExpired earlier windowSeconds) usages now
      windowSeconds := by
  have entries := @TokenWindow.Exact.entries_evict _ earlier windowSeconds tracks.exact
  refine ⟨tracks.exact.evict, ?_, ?_⟩
  · intro entry mem
    rw [entries] at mem
    exact tracks.last entry (List.mem_filter.mp mem).1
  · intro time since
    rw [← tracks.same time since, entries, tokensSince, tokensSince, List.filter_filter]
    refine congrArg tokensOf (List.filter_congr fun entry _ => ?_)
    rw [Bool.and_eq_left_iff_imp]
    intro after
    have after := of_decide_eq_true after
    exact decide_eq_true (by linarith)

theorem idle (tracks : Tracks window usages now windowSeconds) (time : ℚ) :
    Tracks window (usages ++ [⟨time, 0, 0⟩]) now windowSeconds := by
  refine { tracks with same := ?_ }
  intro since le
  have zero : tokensSince [⟨time, 0, 0⟩] since = 0 := by
    rw [tokensSince, List.filter_cons]
    split
    · rfl
    · rfl
  rw [tokensSince_append, zero, Nat.add_zero]
  exact tracks.same since le

theorem record (tracks : Tracks window usages now windowSeconds) (inputTokens outputTokens : Int) :
    Tracks (window.record now inputTokens outputTokens windowSeconds).2
      (usages ++ [⟨now, inputTokens.toNat, outputTokens.toNat⟩]) now windowSeconds := by
  have evicted := tracks.evict le_rfl
  refine ⟨tracks.exact.record tracks.last, ?_, ?_⟩
  · unfold TokenWindow.record
    dsimp only
    split
    · intro entry mem
      rcases List.mem_append.mp mem with old | new
      · exact evicted.last entry old
      · rw [List.mem_singleton.mp new]
    · exact evicted.last
  · intro time since
    unfold TokenWindow.record
    dsimp only
    split
    · dsimp only
      rw [tokensSince_append, tokensSince_append, evicted.same time since]
    · rename_i nothing
      have input : inputTokens.toNat = 0 := by omega
      have output : outputTokens.toNat = 0 := by omega
      rw [input, output]
      exact (evicted.idle now).same time since

theorem available_iff (tracks : Tracks window usages now windowSeconds) (limit : ℕ+) :
    (window.nextAvailable now windowSeconds (some limit)).1 ≤ 0 ↔
      tokensSince usages (now - safeWindow windowSeconds) < limit := by
  rw [← tracks.same _ le_rfl, ← not_lt, tracks.exact.nextAvailable_pos_iff, not_le]

theorem nextAvailable (tracks : Tracks window usages now windowSeconds) {earlier : ℚ}
    (le : earlier ≤ now) (limit : Option ℕ+) :
    Tracks (window.nextAvailable earlier windowSeconds limit).2 usages now windowSeconds := by
  rw [TokenWindow.nextAvailable_snd]
  exact tracks.evict le

end Tracks

end AgentPark.Providers
