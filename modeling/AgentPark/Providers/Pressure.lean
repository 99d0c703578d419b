import AgentPark.Lib.Execution
import AgentPark.Providers.TokenWindow
import Mathlib.Algebra.Order.Floor.Defs
import Mathlib.Data.List.Chain
import Mathlib.Data.Rat.Floor

/-!
# Provider pressure

`ProviderPressureManager` admits the requests to a provider within three limits.  A request holds
the condition of the provider's state while it enters, in each round of its waiting and when it
leaves, and gives it up only in `wait`; so each of these is one step.
-/

namespace AgentPark.Providers

open Lib

/-- `RPM_INTERVAL_BASE_SEC` -/
def rpmIntervalBaseSec : ℚ := 60

/-- `TPM_WINDOW_SEC` -/
def tpmWindowSec : ℚ := 60

/-- `ProviderPressureLimits`.  `_positive_int_or_none` makes a limit positive. -/
structure PressureLimits where
  concurrencyLimit : Option ℕ+ := none
  rpmLimit : Option ℕ+ := none
  tpmLimit : Option ℕ+ := none
deriving DecidableEq

/-- `_ProviderPressureState`.  A waiter is the number of its call. -/
structure PressureState where
  waiters : List Nat := []
  inFlight : Nat := 0
  queued : Nat := 0
  peakInFlight : Nat := 0
  peakQueued : Nat := 0
  peakRpmUsed : Int := 0
  peakTpmUsed : Nat := 0
  peakInputTpmUsed : Nat := 0
  peakOutputTpmUsed : Nat := 0
  lastStartedAt : Option ℚ := none
  lastIntervalSec : Option ℚ := none
  tokenWindow : TokenWindow := {}
deriving DecidableEq

/-- `round(x)`: halves go to the even neighbour. -/
def pyRound (x : ℚ) : Int :=
  let below := ⌊x⌋
  if x - below < 1 / 2 then below
  else if 1 / 2 < x - below then below + 1
  else if below % 2 = 0 then below
  else below + 1

namespace PressureState

variable (limits : PressureLimits) (state : PressureState) (now : ℚ)

/-- `_record_request_start_locked` -/
def recordRequestStart : PressureState :=
  match state.lastStartedAt with
  | none => { state with lastStartedAt := some now }
  | some started =>
    let interval := max 0 (now - started)
    { state with
      lastIntervalSec := some interval
      peakRpmUsed :=
        if 0 < interval then max state.peakRpmUsed (pyRound (rpmIntervalBaseSec / interval))
        else state.peakRpmUsed
      lastStartedAt := some now }

/-- `_record_peaks_locked` -/
def recordPeaks : PressureState :=
  { state with
    peakInFlight := max state.peakInFlight state.inFlight
    peakQueued := max state.peakQueued state.queued }

/-- `_rpm_interval_sec` -/
def rpmIntervalSec : Option ℚ :=
  limits.rpmLimit.map fun limit => rpmIntervalBaseSec / (limit : Nat)

/-- `_rpm_next_available_in_sec_locked` -/
def rpmNextAvailableInSec : ℚ :=
  match rpmIntervalSec limits, state.lastStartedAt with
  | some interval, some started => max 0 (started + interval - now)
  | _, _ => 0

/-- `_tpm_next_available_in_sec_locked`, which also drops what is too old. -/
def tpmNextAvailableInSec : ℚ × PressureState :=
  let (available, tokenWindow) :=
    state.tokenWindow.nextAvailable now tpmWindowSec limits.tpmLimit
  (available, { state with tokenWindow })

/-- `_wait_timeout_locked` -/
def waitTimeout : ℚ × PressureState :=
  let timeout := 1 / 4
  let nextAvailable := rpmNextAvailableInSec limits state now
  let timeout := if 0 < nextAvailable then min timeout (max (1 / 100) nextAvailable) else timeout
  let (tpmNextAvailable, state) := tpmNextAvailableInSec limits state now
  let timeout :=
    if 0 < tpmNextAvailable then min timeout (max (1 / 100) tpmNextAvailable) else timeout
  (timeout, state)

def start : PressureState :=
  let state := state.recordRequestStart now
  { state with inFlight := state.inFlight + 1 }.recordPeaks

/-- `concurrency_ok` -/
def concurrencyOk : Bool :=
  match limits.concurrencyLimit with
  | none => true
  | some limit => state.inFlight < limit

/-- A round of the loop in `acquire`: whether the request starts, and the state it leaves. -/
def attempt (waiter : Nat) : Bool × PressureState :=
  let atHead : Bool := state.waiters.head? = some waiter
  let rpmOk : Bool := rpmNextAvailableInSec limits state now ≤ 0
  let concurrencyOk := concurrencyOk limits state
  let (tpmAvailable, state) := tpmNextAvailableInSec limits state now
  if atHead && concurrencyOk && rpmOk && tpmAvailable ≤ 0 then
    (true, { state with waiters := state.waiters.tail, queued := state.queued - 1 }.start now)
  else (false, (waitTimeout limits state now).2)

/-- A request gets in line. -/
def enqueue (waiter : Nat) : PressureState :=
  { state with waiters := state.waiters ++ [waiter], queued := state.queued + 1 }.recordPeaks

/-- The exit of `acquire` for a request that waits. -/
def withdraw (waiter : Nat) : PressureState :=
  { state with waiters := state.waiters.erase waiter, queued := state.queued - 1 }

/-- The exit of `acquire` for a request that has started. -/
def release : PressureState := { state with inFlight := state.inFlight - 1 }

/-- `_non_negative_int_or_none` of what `int(value)` gives. -/
def nonNegativeInt (value : Option Int) : Option Int := value.filter fun value => 0 ≤ value

/-- `record_tokens` -/
def recordTokens (inputTokens outputTokens : Option Int) : PressureState :=
  match nonNegativeInt inputTokens, nonNegativeInt outputTokens, limits.tpmLimit with
  | none, none, _ => state
  | _, _, none => state
  | input, output, some _ =>
    let (usage, tokenWindow) :=
      state.tokenWindow.record now (input.getD 0) (output.getD 0) tpmWindowSec
    { state with
      tokenWindow
      peakTpmUsed := max state.peakTpmUsed usage.totalTokens
      peakInputTpmUsed := max state.peakInputTpmUsed usage.inputTokens
      peakOutputTpmUsed := max state.peakOutputTpmUsed usage.outputTokens }

end PressureState

/-- A row of `snapshot`. -/
structure PressureRow where
  inFlight : Nat
  queued : Nat
  rpmUsed : Nat
  rpmIntervalSec : Option ℚ
  rpmNextAvailableInSec : ℚ
  rpmRemaining : Option Nat
  tpmUsed : Nat
  tpmRemaining : Option Nat
  inputTpmUsed : Nat
  outputTpmUsed : Nat
  tpmNextAvailableInSec : ℚ
  peakInFlight : Nat
  peakQueued : Nat
  peakRpmUsed : Int
  peakTpmUsed : Nat
  peakInputTpmUsed : Nat
  peakOutputTpmUsed : Nat
deriving DecidableEq

/-- `snapshot` for one provider. -/
def PressureState.snapshot (limits : PressureLimits) (state : PressureState) (now : ℚ) :
    PressureRow × PressureState :=
  let rpmNext := state.rpmNextAvailableInSec limits now
  let (usage, tokenWindow) := state.tokenWindow.usage now tpmWindowSec
  let (tpmNext, state) := tpmNextAvailableInSec limits { state with tokenWindow } now
  let state := state.recordPeaks
  let row :=
    { inFlight := state.inFlight
      queued := state.queued
      rpmUsed := if 0 < rpmNext then 1 else 0
      rpmIntervalSec := rpmIntervalSec limits
      rpmNextAvailableInSec := rpmNext
      rpmRemaining := limits.rpmLimit.map fun _ => if 0 < rpmNext then 0 else 1
      tpmUsed := usage.totalTokens
      tpmRemaining := limits.tpmLimit.map fun limit => limit - usage.totalTokens
      inputTpmUsed := usage.inputTokens
      outputTpmUsed := usage.outputTokens
      tpmNextAvailableInSec := tpmNext
      peakInFlight := state.peakInFlight
      peakQueued := state.peakQueued
      peakRpmUsed := state.peakRpmUsed
      peakTpmUsed := state.peakTpmUsed
      peakInputTpmUsed := state.peakInputTpmUsed
      peakOutputTpmUsed := state.peakOutputTpmUsed }
  (row, state)

/-! ### A provider with its requests -/

/-- Where a call of `acquire` is. -/
inductive CallPhase where
  | waiting
  | admitted
  | released
  | withdrawn
deriving DecidableEq

/-- What a run is watched for. -/
inductive PressureEvent where
  | started (call : Nat) (time : ℚ)
  | recorded (usage : TokenEntry)
deriving DecidableEq

/-- The state of a provider, the clock and the calls of `acquire` in the order in which they came.
`events` only watches. -/
structure Pressure where
  state : PressureState
  clock : ℚ
  calls : List CallPhase
  events : List PressureEvent
deriving DecidableEq

/-- A provider without requests. -/
def Pressure.empty (clock : ℚ) : Pressure := ⟨{}, clock, [], []⟩

/-- What can happen.  `withdraw` is an exception in a round or in `wait`; `cancelled` is one in the
first round. -/
inductive PressureAction where
  | tick (clock : ℚ)
  | acquire (cancelled : Bool)
  | wake (call : Nat)
  | withdraw (call : Nat)
  | release (call : Nat)
  | recordTokens (inputTokens outputTokens : Option Int)
  | snapshot (now : ℚ)

/-- `acquire` has no limit to look at. -/
def PressureLimits.unlimited (limits : PressureLimits) : Prop :=
  limits.concurrencyLimit = none ∧ limits.rpmLimit = none ∧ limits.tpmLimit = none

instance (limits : PressureLimits) : Decidable limits.unlimited :=
  inferInstanceAs (Decidable (_ ∧ _ ∧ _))

variable (limits : PressureLimits)

/-- A call waits for another round or starts. -/
def Pressure.attempt (s : Pressure) (call : Nat) : Pressure :=
  match s.state.attempt limits s.clock call with
  | (true, state) =>
    { s with
      state
      calls := s.calls.set call .admitted
      events := s.events ++ [.started call s.clock] }
  | (false, state) => { s with state }

/-- A waiting call gives up. -/
def Pressure.withdraw (s : Pressure) (call : Nat) : Pressure :=
  { s with state := s.state.withdraw call, calls := s.calls.set call .withdrawn }

/-- A call of `acquire`, up to its first wait. -/
def Pressure.acquire (s : Pressure) (cancelled : Bool) : Pressure :=
  let call := s.calls.length
  if limits.unlimited then
    { s with
      state := s.state.start s.clock
      calls := s.calls ++ [.admitted]
      events := s.events ++ [.started call s.clock] }
  else
    let s : Pressure := { s with state := s.state.enqueue call, calls := s.calls ++ [.waiting] }
    if cancelled then s.withdraw call else s.attempt limits call

/-- What `record_tokens` counts. -/
def recordedUsage (inputTokens outputTokens : Option Int) (now : ℚ) : TokenEntry :=
  ⟨now, ((PressureState.nonNegativeInt inputTokens).getD 0).toNat,
    ((PressureState.nonNegativeInt outputTokens).getD 0).toNat⟩

/-- A provider with fixed limits, its clock and all calls of `acquire`. -/
def pressureStep (s : Pressure) : PressureAction → Option Pressure
  | .tick clock => if s.clock ≤ clock then some { s with clock } else none
  | .acquire cancelled => some (s.acquire limits cancelled)
  | .wake call => if s.calls[call]? = some .waiting then some (s.attempt limits call) else none
  | .withdraw call => if s.calls[call]? = some .waiting then some (s.withdraw call) else none
  | .release call =>
    if s.calls[call]? = some .admitted then
      some { s with state := s.state.release, calls := s.calls.set call .released }
    else none
  | .recordTokens inputTokens outputTokens =>
    some { s with
      state := s.state.recordTokens limits s.clock inputTokens outputTokens
      events := s.events ++ [.recorded (recordedUsage inputTokens outputTokens s.clock)] }
  | .snapshot now =>
    if now ≤ s.clock then some { s with state := (s.state.snapshot limits now).2 } else none

/-! ### What the steps of a request do -/

section

variable {limits : PressureLimits} {state state' : PressureState} {now : ℚ} {waiter : Nat}

theorem lastStartedAt_recordRequestStart :
    (state.recordRequestStart now).lastStartedAt = some now ∧
      (state.recordRequestStart now).waiters = state.waiters ∧
      (state.recordRequestStart now).queued = state.queued ∧
      (state.recordRequestStart now).inFlight = state.inFlight ∧
      (state.recordRequestStart now).tokenWindow = state.tokenWindow := by
  unfold PressureState.recordRequestStart
  split
  · exact ⟨rfl, rfl, rfl, rfl, rfl⟩
  · exact ⟨rfl, rfl, rfl, rfl, rfl⟩

theorem fields_recordTokens (inputTokens outputTokens : Option Int) :
    (state.recordTokens limits now inputTokens outputTokens).waiters = state.waiters ∧
      (state.recordTokens limits now inputTokens outputTokens).queued = state.queued ∧
      (state.recordTokens limits now inputTokens outputTokens).inFlight = state.inFlight ∧
      (state.recordTokens limits now inputTokens outputTokens).lastStartedAt =
        state.lastStartedAt := by
  unfold PressureState.recordTokens
  split
  · exact ⟨rfl, rfl, rfl, rfl⟩
  · exact ⟨rfl, rfl, rfl, rfl⟩
  · exact ⟨rfl, rfl, rfl, rfl⟩

theorem snd_tpmNextAvailable : (state.tpmNextAvailableInSec limits now).2 =
    { state with tokenWindow := state.tokenWindow.evictExpired now tpmWindowSec } := by
  have evicted := @TokenWindow.nextAvailable_snd state.tokenWindow now tpmWindowSec
    limits.tpmLimit
  exact congrArg (fun tokenWindow => { state with tokenWindow }) evicted

theorem attempt_true (attempted : state.attempt limits now waiter = (true, state')) :
    state.waiters.head? = some waiter ∧
      (∀ limit, limits.concurrencyLimit = some limit → state.inFlight < limit) ∧
      state.rpmNextAvailableInSec limits now ≤ 0 ∧
      (state.tpmNextAvailableInSec limits now).1 ≤ 0 ∧
      state'.waiters = state.waiters.tail ∧ state'.queued = state.queued - 1 ∧
      state'.inFlight = state.inFlight + 1 ∧ state'.lastStartedAt = some now ∧
      state'.tokenWindow = state.tokenWindow.evictExpired now tpmWindowSec := by
  unfold PressureState.attempt at attempted
  dsimp only at attempted
  split at attempted
  · rename_i allowed
    rw [Bool.and_eq_true, Bool.and_eq_true, Bool.and_eq_true] at allowed
    obtain ⟨⟨⟨atHead, concurrency⟩, rpm⟩, tpm⟩ := allowed
    obtain ⟨last, waiters, queued, inFlight, window⟩ := @lastStartedAt_recordRequestStart
      { (state.tpmNextAvailableInSec limits now).2 with
        waiters := state.waiters.tail, queued := state.queued - 1 } now
    cases attempted
    refine ⟨of_decide_eq_true atHead, ?_, of_decide_eq_true rpm, of_decide_eq_true tpm, waiters,
      queued, ?_, last, window.trans (congrArg PressureState.tokenWindow snd_tpmNextAvailable)⟩
    · intro limit isLimit
      rw [PressureState.concurrencyOk, isLimit] at concurrency
      exact of_decide_eq_true concurrency
    · exact congrArg (· + 1) inFlight
  · cases attempted

theorem attempt_false (attempted : state.attempt limits now waiter = (false, state')) :
    ∃ tokenWindow, state' = { state with tokenWindow } ∧ tokenWindow =
      (state.tokenWindow.evictExpired now tpmWindowSec).evictExpired now tpmWindowSec := by
  unfold PressureState.attempt at attempted
  dsimp only at attempted
  split at attempted
  · cases attempted
  · rw [snd_tpmNextAvailable] at attempted
    obtain ⟨_, rfl⟩ := Prod.mk.inj attempted
    exact ⟨_, snd_tpmNextAvailable, rfl⟩

end

/-! ### The requests in line -/

/-- The calls that wait, in the order in which they came. -/
def waitingCalls (calls : List CallPhase) : List Nat :=
  (List.range calls.length).filter fun call => calls[call]? = some .waiting

theorem mem_waitingCalls {calls : List CallPhase} {call : Nat} :
    call ∈ waitingCalls calls ↔ calls[call]? = some .waiting := by
  rw [waitingCalls, List.mem_filter, List.mem_range, decide_eq_true_iff]
  refine ⟨fun mem => mem.2, fun waits => ⟨?_, waits⟩⟩
  exact (List.getElem?_eq_some_iff.mp waits).1

theorem waitingCalls_append (calls : List CallPhase) (phase : CallPhase) :
    waitingCalls (calls ++ [phase]) =
      waitingCalls calls ++ if phase = .waiting then [calls.length] else [] := by
  unfold waitingCalls
  rw [List.length_append, List.length_singleton, List.range_succ, List.filter_append]
  congr 1
  · apply List.filter_congr
    intro call mem
    rw [List.getElem?_append_left (List.mem_range.mp mem)]
  · rw [List.filter_cons, List.filter_nil, List.getElem?_concat_length]
    simp

theorem waitingCalls_set {calls : List CallPhase} {call : Nat} {phase : CallPhase}
    (leaves : phase ≠ .waiting) :
    waitingCalls (calls.set call phase) = (waitingCalls calls).erase call := by
  have nodup : (waitingCalls calls).Nodup := List.nodup_range.filter _
  rw [nodup.erase_eq_filter]
  unfold waitingCalls
  rw [List.length_set, List.filter_filter]
  apply List.filter_congr
  intro other mem
  rw [List.getElem?_set]
  by_cases same : call = other
  · subst same
    simp [List.mem_range.mp mem, leaves]
  · simp [same, Ne.symm same]

theorem sorted_waitingCalls (calls : List CallPhase) :
    (waitingCalls calls).Pairwise (· < ·) := List.pairwise_lt_range.filter _

theorem count_set_waiting {calls : List CallPhase} {call : Nat}
    (waits : calls[call]? = some .waiting) (phase : CallPhase) :
    (calls.set call phase).count .admitted =
      calls.count .admitted + if phase = .admitted then 1 else 0 := by
  obtain ⟨lt, isWaiting⟩ := List.getElem?_eq_some_iff.mp waits
  rw [List.count_set lt, isWaiting]
  simp

/-! ### The invariant -/

def startsOf (events : List PressureEvent) : List (Nat × ℚ) :=
  events.filterMap fun
    | .started call time => some (call, time)
    | .recorded _ => none

def usagesOf (events : List PressureEvent) : List TokenEntry :=
  events.filterMap fun
    | .started _ _ => none
    | .recorded usage => some usage

@[simp] theorem startsOf_started (events : List PressureEvent) (call : Nat) (time : ℚ) :
    startsOf (events ++ [.started call time]) = startsOf events ++ [(call, time)] := by
  simp [startsOf]

@[simp] theorem startsOf_recorded (events : List PressureEvent) (usage : TokenEntry) :
    startsOf (events ++ [.recorded usage]) = startsOf events := by
  simp [startsOf]

@[simp] theorem usagesOf_started (events : List PressureEvent) (call : Nat) (time : ℚ) :
    usagesOf (events ++ [.started call time]) = usagesOf events := by
  simp [usagesOf]

@[simp] theorem usagesOf_recorded (events : List PressureEvent) (usage : TokenEntry) :
    usagesOf (events ++ [.recorded usage]) = usagesOf events ++ [usage] := by
  simp [usagesOf]

/-- Each start found the tokens of the last seconds below the limit. -/
def BelowTokens (limit : ℕ+) (events : List PressureEvent) : Prop :=
  ∀ before call time after, events = before ++ .started call time :: after →
    tokensSince (usagesOf before) (time - tpmWindowSec) < limit

theorem belowTokens_nil (limit : ℕ+) : BelowTokens limit [] := by
  intro before call time after split
  simp at split

theorem BelowTokens.concat {limit : ℕ+} {events : List PressureEvent} {event : PressureEvent}
    (below : BelowTokens limit events)
    (last : ∀ call time, event = .started call time →
      tokensSince (usagesOf events) (time - tpmWindowSec) < limit) :
    BelowTokens limit (events ++ [event]) := by
  intro before call time after split
  rcases List.eq_nil_or_concat after with rfl | ⟨rest, final, rfl⟩
  · obtain ⟨rfl, same⟩ := List.append_inj' split rfl
    exact last call time (List.singleton_inj.mp same)
  · rw [List.concat_eq_append, ← List.cons_append, ← List.append_assoc] at split
    exact below before call time rest (List.append_inj' split rfl).1

/-- What holds of a provider, its requests and what they have done. -/
structure Within (limits : PressureLimits) (s : Pressure) : Prop where
  waiters : s.state.waiters = waitingCalls s.calls
  queued : s.state.queued = s.state.waiters.length
  inFlight : s.state.inFlight = s.calls.count .admitted
  concurrency : ∀ limit, limits.concurrencyLimit = some limit → s.state.inFlight ≤ limit
  last : s.state.lastStartedAt = (startsOf s.events).getLast?.map Prod.snd
  spaced : ∀ limit : ℕ+, limits.rpmLimit = some limit →
    ((startsOf s.events).map Prod.snd).IsChain fun first next =>
      first + rpmIntervalBaseSec / (limit : Nat) ≤ next
  tracks : limits.tpmLimit ≠ none →
    Tracks s.state.tokenWindow (usagesOf s.events) s.clock tpmWindowSec
  tokens : ∀ limit, limits.tpmLimit = some limit → BelowTokens limit s.events
  ordered : ((startsOf s.events).map Prod.fst).Pairwise (· < ·)
  known : ∀ start ∈ startsOf s.events, start.1 < s.calls.length
  /-- Without limits no call waits. -/
  free : limits.unlimited → ∀ call : Nat, s.calls[call]? ≠ some .waiting
  /-- No call that came before one that has started still waits. -/
  passed : ∀ start ∈ startsOf s.events, ∀ call ≤ start.1, s.calls[call]? ≠ some .waiting

theorem within_empty (limits : PressureLimits) (clock : ℚ) : Within limits (.empty clock) where
  waiters := rfl
  queued := rfl
  inFlight := rfl
  concurrency _ _ := Nat.zero_le _
  last := rfl
  spaced _ _ := List.IsChain.nil
  tracks _ := tracks_empty clock tpmWindowSec
  tokens limit _ := belowTokens_nil limit
  ordered := List.Pairwise.nil
  known _ mem := nomatch mem
  free _ _ waits := nomatch waits
  passed _ mem := nomatch mem

theorem safeWindow_tpmWindowSec : safeWindow tpmWindowSec = tpmWindowSec := by
  rw [safeWindow, tpmWindowSec]
  norm_num

section

variable {limits : PressureLimits} {s : Pressure}

theorem Within.observe (within : Within limits s) {state : PressureState}
    (waiters : state.waiters = s.state.waiters) (queued : state.queued = s.state.queued)
    (inFlight : state.inFlight = s.state.inFlight)
    (last : state.lastStartedAt = s.state.lastStartedAt)
    (tracks : limits.tpmLimit ≠ none →
      Tracks state.tokenWindow (usagesOf s.events) s.clock tpmWindowSec) :
    Within limits { s with state } := by
  refine { within with waiters := ?_, queued := ?_, inFlight := ?_, concurrency := ?_, last := ?_
                       tracks := tracks }
  · exact waiters.trans within.waiters
  · dsimp only
    rw [queued, waiters]
    exact within.queued
  · exact inFlight.trans within.inFlight
  · dsimp only
    rw [inFlight]
    exact within.concurrency
  · exact last.trans within.last

theorem Within.start (within : Within limits s) {state : PressureState} {calls : List CallPhase}
    {call : Nat} (waiters : state.waiters = waitingCalls calls)
    (queued : state.queued = state.waiters.length)
    (inFlight : state.inFlight = calls.count .admitted)
    (concurrency : ∀ limit, limits.concurrencyLimit = some limit → state.inFlight ≤ limit)
    (last : state.lastStartedAt = some s.clock)
    (spacing : ∀ limit : ℕ+, limits.rpmLimit = some limit → ∀ time,
      s.state.lastStartedAt = some time →
        time + rpmIntervalBaseSec / (limit : Nat) ≤ s.clock)
    (tracks : limits.tpmLimit ≠ none →
      Tracks state.tokenWindow (usagesOf s.events) s.clock tpmWindowSec)
    (below : ∀ limit, limits.tpmLimit = some limit →
      tokensSince (usagesOf s.events) (s.clock - tpmWindowSec) < limit)
    (later : ∀ start ∈ startsOf s.events, start.1 < call) (lt : call < calls.length)
    (free : limits.unlimited → ∀ call : Nat, calls[call]? ≠ some .waiting)
    (passed : ∀ other ≤ call, calls[other]? ≠ some .waiting) :
    Within limits
      { s with state, calls, events := s.events ++ [.started call s.clock] } := by
  refine
    { waiters := waiters, queued := queued, inFlight := inFlight, concurrency := concurrency
      last := ?_, spaced := ?_, tracks := ?_, tokens := ?_, ordered := ?_, known := ?_
      free := free, passed := ?_ }
  · dsimp only
    rw [startsOf_started, List.getLast?_concat, last]
    rfl
  · intro limit isLimit
    dsimp only
    rw [startsOf_started, List.map_append]
    refine (within.spaced limit isLimit).append (List.IsChain.singleton _) ?_
    intro first isLast next isNext
    rw [List.getLast?_map, Option.mem_def, ← within.last] at isLast
    cases isNext
    exact spacing limit isLimit first isLast
  · dsimp only
    rw [usagesOf_started]
    exact tracks
  · intro limit isLimit
    refine (within.tokens limit isLimit).concat ?_
    intro call' time same
    cases same
    exact below limit isLimit
  · dsimp only
    rw [startsOf_started, List.map_append, List.pairwise_append]
    refine ⟨within.ordered, List.pairwise_singleton _ _, ?_⟩
    intro earlier mem call' isCall
    obtain ⟨start, isStart, rfl⟩ := List.mem_map.mp mem
    rw [List.map_singleton, List.mem_singleton] at isCall
    rw [isCall]
    exact later start isStart
  · intro start isStart
    dsimp only at isStart
    rw [startsOf_started, List.mem_append, List.mem_singleton] at isStart
    rcases isStart with old | rfl
    · exact (later start old).trans lt
    · exact lt
  · intro start isStart other le
    dsimp only at isStart
    rw [startsOf_started, List.mem_append, List.mem_singleton] at isStart
    rcases isStart with old | rfl
    · exact passed other (le.trans (later start old).le)
    · exact passed other le

theorem Within.attempt (within : Within limits s) {call : Nat}
    (waits : s.calls[call]? = some .waiting) : Within limits (s.attempt limits call) := by
  unfold Pressure.attempt
  split
  · rename_i state attempted
    obtain ⟨atHead, concurrency, rpm, tpm, waiters, queued, inFlight, last, window⟩ :=
      attempt_true attempted
    have notWaiting : CallPhase.admitted ≠ .waiting := by decide
    have head : waitingCalls s.calls = call :: s.state.waiters.tail := by
      rw [← within.waiters]
      exact List.eq_cons_of_mem_head? atHead
    have first : ∀ other, s.calls[other]? = some .waiting → call ≤ other := by
      intro other isWaiting
      have mem := mem_waitingCalls.mpr isWaiting
      have sorted := sorted_waitingCalls s.calls
      rw [head] at mem sorted
      rcases List.mem_cons.mp mem with rfl | mem
      · exact le_rfl
      · exact ((List.pairwise_cons.mp sorted).1 other mem).le
    obtain ⟨lt, _⟩ := List.getElem?_eq_some_iff.mp waits
    refine within.start ?_ ?_ ?_ ?_ last ?_ ?_ ?_ ?_ ?_
      (fun unlimited => absurd waits (within.free unlimited call)) ?_
    · rw [waiters, waitingCalls_set notWaiting, head, List.erase_cons_head]
    · rw [queued, waiters, within.queued, List.length_tail]
    · rw [inFlight, count_set_waiting waits, within.inFlight, if_pos rfl]
    · intro limit isLimit
      rw [inFlight]
      exact concurrency limit isLimit
    · intro limit isLimit time isLast
      rw [PressureState.rpmNextAvailableInSec, PressureState.rpmIntervalSec, isLimit, isLast] at rpm
      have free := (max_le_iff.mp rpm).2
      dsimp only at free
      linarith
    · intro hasLimit
      rw [window]
      exact (within.tracks hasLimit).evict le_rfl
    · intro limit isLimit
      have tracks := within.tracks (by simp [isLimit])
      rw [PressureState.tpmNextAvailableInSec, isLimit] at tpm
      have below := (tracks.available_iff limit).mp tpm
      rw [safeWindow_tpmWindowSec] at below
      exact below
    · intro start isStart
      by_contra notLt
      exact within.passed start isStart call (not_lt.mp notLt) waits
    · rw [List.length_set]
      exact lt
    · intro other le isWaiting
      rw [List.getElem?_set] at isWaiting
      split at isWaiting
      · cases isWaiting
      · rename_i different
        exact different (le_antisymm (first other isWaiting) le)
  · rename_i state attempted
    obtain ⟨tokenWindow, rfl, rfl⟩ := attempt_false attempted
    refine within.observe rfl rfl rfl rfl fun hasLimit => ?_
    exact ((within.tracks hasLimit).evict le_rfl).evict le_rfl

theorem Within.withdraw (within : Within limits s) {call : Nat}
    (waits : s.calls[call]? = some .waiting) : Within limits (s.withdraw call) := by
  have notWaiting : CallPhase.withdrawn ≠ .waiting := by decide
  have mem : call ∈ s.state.waiters := by
    rw [within.waiters]
    exact mem_waitingCalls.mpr waits
  refine
    { within with
      waiters := ?_, queued := ?_, inFlight := ?_, known := ?_, passed := ?_
      free := fun unlimited => absurd waits (within.free unlimited call) }
  · change s.state.waiters.erase call = waitingCalls (s.calls.set call .withdrawn)
    rw [waitingCalls_set notWaiting, within.waiters]
  · change s.state.queued - 1 = (s.state.waiters.erase call).length
    rw [List.length_erase_of_mem mem, within.queued]
  · change s.state.inFlight = (s.calls.set call .withdrawn).count .admitted
    rw [count_set_waiting waits, within.inFlight]
    simp
  · intro start isStart
    change start.1 < (s.calls.set call .withdrawn).length
    rw [List.length_set]
    exact within.known start isStart
  · intro start isStart other le isWaiting
    change (s.calls.set call .withdrawn)[other]? = some .waiting at isWaiting
    rw [List.getElem?_set] at isWaiting
    split at isWaiting
    · split at isWaiting
      · cases isWaiting
      · cases isWaiting
    · exact within.passed start isStart other le isWaiting

theorem Within.enqueue (within : Within limits s) (limited : ¬ limits.unlimited) : Within limits
    { s with
      state := s.state.enqueue s.calls.length
      calls := s.calls ++ [.waiting] } := by
  refine
    { within with
      waiters := ?_, queued := ?_, inFlight := ?_, known := ?_, passed := ?_
      free := fun unlimited => absurd unlimited limited }
  · change s.state.waiters ++ [s.calls.length] =
      waitingCalls (s.calls ++ [CallPhase.waiting])
    rw [waitingCalls_append, if_pos rfl, within.waiters]
  · change s.state.queued + 1 = (s.state.waiters ++ [s.calls.length]).length
    rw [List.length_append, List.length_singleton, within.queued]
  · change s.state.inFlight = (s.calls ++ [CallPhase.waiting]).count .admitted
    rw [List.count_append, within.inFlight]
    rfl
  · intro start isStart
    have lt := within.known start isStart
    change start.1 < (s.calls ++ [CallPhase.waiting]).length
    rw [List.length_append]
    omega
  · intro start isStart other le isWaiting
    have lt := within.known start isStart
    change (s.calls ++ [CallPhase.waiting])[other]? = some .waiting at isWaiting
    rw [List.getElem?_append_left (by omega)] at isWaiting
    exact within.passed start isStart other le isWaiting

theorem Within.acquire (within : Within limits s) (cancelled : Bool) :
    Within limits (s.acquire limits cancelled) := by
  unfold Pressure.acquire
  dsimp only
  split
  · rename_i unlimited
    obtain ⟨noConcurrency, noRpm, noTpm⟩ := unlimited
    have free : ∀ call : Nat, (s.calls ++ [CallPhase.admitted])[call]? ≠ some .waiting := by
      intro call waits
      have mem := mem_waitingCalls.mpr waits
      rw [waitingCalls_append, if_neg (by decide), List.append_nil, mem_waitingCalls] at mem
      exact within.free ⟨noConcurrency, noRpm, noTpm⟩ call mem
    obtain ⟨last, waiters, queued, inFlight, -⟩ :=
      @lastStartedAt_recordRequestStart s.state s.clock
    refine within.start ?_ ?_ ?_ ?_ last ?_ ?_ ?_ ?_ ?_ (fun _ => free) fun other _ => free other
    · change (s.state.recordRequestStart s.clock).waiters = _
      rw [waitingCalls_append, waiters, within.waiters]
      simp
    · change (s.state.recordRequestStart s.clock).queued =
        (s.state.recordRequestStart s.clock).waiters.length
      rw [queued, waiters, within.queued]
    · change (s.state.recordRequestStart s.clock).inFlight + 1 = _
      rw [inFlight, within.inFlight, List.count_append, List.count_singleton_self]
    · intro limit isLimit
      rw [noConcurrency] at isLimit
      cases isLimit
    · intro limit isLimit
      rw [noRpm] at isLimit
      cases isLimit
    · intro hasLimit
      exact absurd noTpm hasLimit
    · intro limit isLimit
      rw [noTpm] at isLimit
      cases isLimit
    · exact within.known
    · rw [List.length_append, List.length_singleton]
      exact Nat.lt_succ_self _
  · rename_i limited
    have entered := within.enqueue limited
    split
    · exact entered.withdraw List.getElem?_concat_length
    · exact entered.attempt List.getElem?_concat_length

theorem Within.release (within : Within limits s) {call : Nat}
    (admitted : s.calls[call]? = some .admitted) : Within limits
    { s with state := s.state.release, calls := s.calls.set call .released } := by
  obtain ⟨lt, isAdmitted⟩ := List.getElem?_eq_some_iff.mp admitted
  have notWaiting : CallPhase.released ≠ .waiting := by decide
  have notIn : call ∉ waitingCalls s.calls := by
    rw [mem_waitingCalls, admitted]
    simp
  have waits : ∀ other : Nat, (s.calls.set call .released)[other]? = some .waiting →
      s.calls[other]? = some .waiting := by
    intro other isWaiting
    rw [List.getElem?_set] at isWaiting
    split at isWaiting
    · cases isWaiting
    · exact isWaiting
  refine
    { within with
      waiters := ?_, inFlight := ?_, concurrency := ?_, known := ?_
      free := fun unlimited other isWaiting => within.free unlimited other (waits other isWaiting)
      passed := fun start isStart other le isWaiting =>
        within.passed start isStart other le (waits other isWaiting) }
  · change s.state.waiters = waitingCalls (s.calls.set call .released)
    rw [waitingCalls_set notWaiting, List.erase_of_not_mem notIn]
    exact within.waiters
  · change s.state.inFlight - 1 = (s.calls.set call .released).count .admitted
    rw [List.count_set lt, isAdmitted, within.inFlight]
    simp
  · intro limit isLimit
    have le := within.concurrency limit isLimit
    change s.state.inFlight - 1 ≤ limit
    omega
  · intro start isStart
    change start.1 < (s.calls.set call .released).length
    rw [List.length_set]
    exact within.known start isStart

theorem Within.recordTokens (within : Within limits s) (inputTokens outputTokens : Option Int) :
    Within limits { s with
      state := s.state.recordTokens limits s.clock inputTokens outputTokens
      events := s.events ++ [.recorded (recordedUsage inputTokens outputTokens s.clock)] } := by
  obtain ⟨waiters, queued, inFlight, last⟩ := @fields_recordTokens limits s.state s.clock
    inputTokens outputTokens
  have counted : limits.tpmLimit ≠ none →
      Tracks (s.state.recordTokens limits s.clock inputTokens outputTokens).tokenWindow
        (usagesOf s.events ++ [recordedUsage inputTokens outputTokens s.clock]) s.clock
        tpmWindowSec := by
    intro hasLimit
    have tracks := within.tracks hasLimit
    unfold PressureState.recordTokens recordedUsage
    split
    · rename_i noInput noOutput
      rw [noInput, noOutput]
      exact tracks.idle s.clock
    · exact absurd (by assumption) hasLimit
    · exact tracks.record _ _
  refine
    { waiters := waiters.trans within.waiters, queued := ?_, inFlight := inFlight.trans within.inFlight
      concurrency := ?_, last := ?_, spaced := ?_, tracks := ?_, tokens := ?_, ordered := ?_
      known := ?_, free := within.free, passed := ?_ }
  · dsimp only
    rw [queued, waiters]
    exact within.queued
  · dsimp only
    rw [inFlight]
    exact within.concurrency
  · dsimp only
    rw [last, startsOf_recorded]
    exact within.last
  · dsimp only
    rw [startsOf_recorded]
    exact within.spaced
  · dsimp only
    rw [usagesOf_recorded]
    exact counted
  · intro limit isLimit
    exact (within.tokens limit isLimit).concat fun call time same => nomatch same
  · dsimp only
    rw [startsOf_recorded]
    exact within.ordered
  · dsimp only
    rw [startsOf_recorded]
    exact within.known
  · dsimp only
    rw [startsOf_recorded]
    exact within.passed

theorem Within.snapshot (within : Within limits s) {now : ℚ} (le : now ≤ s.clock) :
    Within limits { s with state := (s.state.snapshot limits now).2 } := by
  refine within.observe rfl rfl rfl rfl fun hasLimit => ?_
  exact ((within.tracks hasLimit).evict le).nextAvailable le limits.tpmLimit

theorem Within.tick (within : Within limits s) {clock : ℚ} (le : s.clock ≤ clock) :
    Within limits { s with clock } :=
  { within with tracks := fun hasLimit => (within.tracks hasLimit).advance le }

/-- One action keeps the provider within its limits. -/
theorem Within.step (within : Within limits s) {t : Pressure} {action : PressureAction}
    (stepped : pressureStep limits s action = some t) : Within limits t := by
  cases action with
  | tick clock =>
    obtain ⟨le, same⟩ := Option.ite_none_right_eq_some.mp stepped
    cases same
    exact within.tick le
  | acquire cancelled =>
    cases stepped
    exact within.acquire cancelled
  | wake call =>
    obtain ⟨waits, same⟩ := Option.ite_none_right_eq_some.mp stepped
    cases same
    exact within.attempt waits
  | withdraw call =>
    obtain ⟨waits, same⟩ := Option.ite_none_right_eq_some.mp stepped
    cases same
    exact within.withdraw waits
  | release call =>
    obtain ⟨admitted, same⟩ := Option.ite_none_right_eq_some.mp stepped
    cases same
    exact within.release admitted
  | recordTokens inputTokens outputTokens =>
    cases stepped
    exact within.recordTokens inputTokens outputTokens
  | snapshot now =>
    obtain ⟨le, same⟩ := Option.ite_none_right_eq_some.mp stepped
    cases same
    exact within.snapshot le

end

/-! ### After every run -/

/-- The limits are kept: what is in flight are the admitted calls and no more of them than may be,
the starts are spaced, each start found the tokens of the last seconds below their limit, calls
start in the order in which they came, and the queue has exactly the calls that wait. -/
theorem limits_kept (limits : PressureLimits) {clock : ℚ} {actions : List PressureAction}
    {s : Pressure} (ran : run (pressureStep limits) (.empty clock) actions = some s) :
    (s.state.inFlight = s.calls.count .admitted ∧
        ∀ limit, limits.concurrencyLimit = some limit → s.state.inFlight ≤ limit) ∧
      (∀ limit : ℕ+, limits.rpmLimit = some limit →
        ((startsOf s.events).map Prod.snd).IsChain fun first next =>
          first + (60 : ℚ) / (limit : Nat) ≤ next) ∧
      (∀ limit, limits.tpmLimit = some limit → ∀ before call time after,
        s.events = before ++ .started call time :: after →
          tokensSince (usagesOf before) (time - 60) < limit) ∧
      (((startsOf s.events).map Prod.fst).Pairwise (· < ·) ∧
        ∀ start ∈ startsOf s.events, ∀ call ≤ start.1, s.calls[call]? ≠ some .waiting) ∧
      s.state.waiters = waitingCalls s.calls ∧ s.state.queued = s.state.waiters.length := by
  have within : Within limits s :=
    run_invariant (fun _ _ _ within stepped => within.step stepped) (within_empty limits clock) ran
  exact ⟨⟨within.inFlight, within.concurrency⟩, within.spaced, within.tokens,
    ⟨within.ordered, within.passed⟩, within.waiters, within.queued⟩

/-- Two requests with one permit, where the second is cancelled and a third starts in its place. -/
def onePermit : List PressureAction :=
  [.acquire false, .acquire false, .acquire false, .withdraw 1, .release 0, .tick 30, .wake 2]

/-- The third request starts half a minute behind the first one. -/
theorem limits_kept_onePermit :
    ∃ s, run (pressureStep { concurrencyLimit := some 1, rpmLimit := some 2 }) (.empty 0) onePermit =
        some s ∧
      startsOf s.events = [(0, 0), (2, 30)] ∧ s.state.inFlight = s.calls.count .admitted := by
  have starts : (run (pressureStep { concurrencyLimit := some 1, rpmLimit := some 2 }) (.empty 0)
      onePermit).map (fun s => startsOf s.events) = some [(0, 0), (2, 30)] := by
    decide +kernel
  obtain ⟨s, ran, starts⟩ := Option.map_eq_some_iff.mp starts
  exact ⟨s, ran, starts, (limits_kept _ ran).1.1⟩

/-! ### Getting a turn -/

theorem attempt_fst {limits : PressureLimits} {state : PressureState} {now : ℚ} {waiter : Nat} :
    (state.attempt limits now waiter).1 = true ↔
      state.waiters.head? = some waiter ∧ state.concurrencyOk limits = true ∧
        state.rpmNextAvailableInSec limits now ≤ 0 ∧ (state.tpmNextAvailableInSec limits now).1 ≤ 0 := by
  unfold PressureState.attempt
  dsimp only
  split
  · rename_i allowed
    simp only [Bool.and_eq_true, decide_eq_true_eq] at allowed
    exact ⟨fun _ => ⟨allowed.1.1.1, allowed.1.1.2, allowed.1.2, allowed.2⟩, fun _ => rfl⟩
  · rename_i refused
    simp only [Bool.and_eq_true, decide_eq_true_eq] at refused
    exact ⟨fun started => (by cases started),
      fun all => absurd ⟨⟨⟨all.1, all.2.1⟩, all.2.2.1⟩, all.2.2.2⟩ refused⟩

theorem head_waitingCalls {calls : List CallPhase} {call : Nat} (waits : calls[call]? = some .waiting) :
    (waitingCalls calls).head? = some call ↔ ∀ other < call, calls[other]? ≠ some .waiting := by
  obtain ⟨inRange, isWaiting⟩ := List.getElem?_eq_some_iff.mp waits
  rw [waitingCalls, List.head?_filter, List.find?_range_eq_some]
  simp [isWaiting, inRange]

/-- **When a waiting request starts.**  After any run its next round starts it exactly when no earlier call waits, a
place is free, the interval since the last start is over and the tokens of the last seconds are below the limit. -/
theorem wake_starts_iff {limits : PressureLimits} {clock : ℚ} {actions : List PressureAction} {s : Pressure}
    {call : Nat} (ran : run (pressureStep limits) (.empty clock) actions = some s)
    (waits : s.calls[call]? = some .waiting) :
    (∃ t, pressureStep limits s (.wake call) = some t ∧ t.calls[call]? = some .admitted) ↔
      (∀ other < call, s.calls[other]? ≠ some .waiting) ∧
      (∀ limit : ℕ+, limits.concurrencyLimit = some limit → s.calls.count .admitted < limit) ∧
      (∀ limit : ℕ+, limits.rpmLimit = some limit → ∀ start, (startsOf s.events).getLast? = some start →
        start.2 + rpmIntervalBaseSec / (limit : Nat) ≤ s.clock) ∧
      ∀ limit : ℕ+, limits.tpmLimit = some limit →
        tokensSince (usagesOf s.events) (s.clock - tpmWindowSec) < limit := by
  have within : Within limits s :=
    run_invariant (fun _ _ _ inv stepped => inv.step stepped) (within_empty limits clock) ran
  have starts : (∃ t, pressureStep limits s (.wake call) = some t ∧ t.calls[call]? = some .admitted) ↔
      (s.state.attempt limits s.clock call).1 = true := by
    have woken : pressureStep limits s (.wake call) = some (s.attempt limits call) := if_pos waits
    rw [woken, Pressure.attempt]
    have inRange : call < s.calls.length := (List.getElem?_eq_some_iff.mp waits).1
    split
    · rename_i state attempted
      rw [attempted]
      exact ⟨fun _ => rfl, fun _ => ⟨_, rfl, by simp [inRange]⟩⟩
    · rename_i state attempted
      rw [attempted]
      refine ⟨?_, fun absurd => by cases absurd⟩
      rintro ⟨t, same, admitted⟩
      cases same
      cases waits.symm.trans admitted
  rw [starts, attempt_fst, within.waiters, head_waitingCalls waits]
  refine and_congr_right fun _ => and_congr ?_ (and_congr ?_ ?_)
  · rw [PressureState.concurrencyOk, within.inFlight]
    cases limits.concurrencyLimit with
    | none => simp
    | some limit => simp
  · rw [PressureState.rpmNextAvailableInSec, PressureState.rpmIntervalSec, within.last]
    cases limits.rpmLimit with
    | none => simp
    | some limit =>
      cases (startsOf s.events).getLast? with
      | none => simp
      | some start =>
        change max 0 (start.2 + rpmIntervalBaseSec / (limit : Nat) - s.clock) ≤ 0 ↔ _
        rw [max_le_iff, sub_nonpos]
        constructor
        · intro rested other isLimit last isLast
          cases isLimit
          cases isLast
          exact rested.2
        · exact fun rested => ⟨le_rfl, rested limit rfl start rfl⟩
  · rw [PressureState.tpmNextAvailableInSec]
    cases isLimit : limits.tpmLimit with
    | none => simp [TokenWindow.nextAvailable]
    | some limit =>
      have tracks := within.tracks (by rw [isLimit]; exact Option.some_ne_none limit)
      have exactly := tracks.available_iff limit
      rw [safeWindow_tpmWindowSec] at exactly
      simpa using exactly

/-- The third of three requests gets its turn when the first has gone and the second has given up. -/
theorem wake_starts_onePermit :
    ∃ s t, run (pressureStep { concurrencyLimit := some 1, rpmLimit := some 2 }) (.empty 0)
        (onePermit.take 6) = some s ∧
      pressureStep { concurrencyLimit := some 1, rpmLimit := some 2 } s (.wake 2) = some t ∧
        t.calls[2]? = some .admitted := by
  have facts : (run (pressureStep { concurrencyLimit := some 1, rpmLimit := some 2 }) (.empty 0)
      (onePermit.take 6)).map (fun s => (s.calls, s.clock, startsOf s.events)) =
        some ([.released, .withdrawn, .waiting], 30, [(0, 0)]) := by
    decide +kernel
  obtain ⟨s, ran, facts⟩ := Option.map_eq_some_iff.mp facts
  obtain ⟨calls, rest⟩ := Prod.mk.inj facts
  obtain ⟨clock, started⟩ := Prod.mk.inj rest
  have waits : s.calls[2]? = some .waiting := by
    rw [calls]
    rfl
  obtain ⟨t, woken, admitted⟩ := (wake_starts_iff ran waits).mpr (by
    rw [calls, clock, started]
    refine ⟨by decide, ?_, ?_, fun limit absurd => by cases absurd⟩
    · rintro limit same
      cases same
      decide
    · rintro limit same start isLast
      cases same
      cases isLast
      norm_num [rpmIntervalBaseSec])
  exact ⟨s, t, ran, woken, admitted⟩

end AgentPark.Providers
