import AgentPark.Lib.Execution
import AgentPark.Lib.Json
import AgentPark.Runtime.State
import Mathlib.Algebra.Order.Ring.Rat
import Mathlib.Tactic.Linarith

/-!
# The timer trigger

A timer node names a moment.  The scheduler keeps it registered with a due time, takes the entry when it is due,
fires the trigger in the minute of the moment, and registers the node anew.

* `TimerState.step` are the steps of the scheduler, and of whoever edits the node, at one timer node.

The calendar and the time zone are parameters; a due time is an exact number of seconds.  An enqueue goes
through: the exceptions behind which the loop logs and registers anew (a node that is being deleted) are left out.
-/

namespace AgentPark.Nodes

open Lib

/-- A `datetime`; `offset` is the one of its own time zone, if it has one. -/
structure DateTime where
  year : Nat
  month : Nat
  day : Nat
  hour : Nat
  minute : Nat
  second : ℚ
  offset : Option ℚ
deriving DecidableEq

/-- `strftime("%Y-%m-%d %H:%M")`, as the numbers in it. -/
abbrev MinuteKey := Nat × Nat × Nat × Nat × Nat

def DateTime.minuteKey (d : DateTime) : MinuteKey := (d.year, d.month, d.day, d.hour, d.minute)

/-- The calendar and the time zone of the host. -/
structure TimerHost where
  repr : Json → String
  strptime : (text format : String) → Option DateTime
  fromisoformat : String → Option DateTime
  timestamp : DateTime → ℚ
  fromtimestamp : ℚ → DateTime

abbrev NodeConfig := List (String × Json)

section

variable (host : TimerHost)

/-- `_parse_timer_schedule_at` -/
def parseTimerScheduleAt (cfg : NodeConfig) : Option DateTime :=
  let raw := match (cfg.lookup "ScheduleAt").getD .null with
    | .null => cfg.lookup "schedule_at"
    | value => some value
  let text := pyStrip (Json.strOr host.repr "" raw)
  if text = "" then none
  else
    match host.strptime text "%Y-%m-%d %H:%M", host.strptime text "%Y-%m-%d %H:%M:%S" with
    | some parsed, _ | none, some parsed => some parsed
    | none, none =>
      let normalized := String.ofList (text.toList.map fun c => if c = 'T' then ' ' else c)
      host.fromisoformat (if normalized.length = 16 then normalized ++ ":00" else normalized)

/-- `_is_timer_trigger_due` -/
def isTimerTriggerDue (cfg : NodeConfig) (now : DateTime) : Bool :=
  match parseTimerScheduleAt host cfg with
  | none => false
  | some parsed => !(parsed.year < 1900) && parsed.minuteKey = now.minuteKey

/-- `_timer_schedule_due_at` -/
def timerScheduleDueAt (cfg : NodeConfig) (now : ℚ) : Option ℚ :=
  match parseTimerScheduleAt host cfg with
  | none => none
  | some parsed =>
    if parsed.year < 1900 then none
    else
      let dueAt := host.timestamp parsed
      if dueAt + 60 ≤ now then none
      else if dueAt ≤ now then some now
      else some dueAt

/-- `parse_node_state(cfg.get("state")) == "stop"` -/
def isStopped (cfg : NodeConfig) : Bool :=
  match cfg.lookup "state" with
  | some (.str state) => Runtime.parseNodeState state = .stop
  | _ => false

/-- `_build_scheduled_registration` of a timer node: the due time it is registered with. -/
def buildScheduledRegistration (cfg : NodeConfig) (now : ℚ) : Option ℚ :=
  if isStopped cfg then none else timerScheduleDueAt host cfg now

/-- `_read_output_text` -/
def readOutputText (cfg : NodeConfig) : String :=
  match cfg.lookup "OutputText" with
  | none | some .null => ""
  | some value => value.pyStr host.repr

/-! ### The scheduler at one node -/

/-- What the loop of the scheduler has done with an entry of the node. -/
inductive TimerPhase where
  | waiting
  | taken (dueAt takenAt : ℚ)
  | refreshing
deriving DecidableEq

/-- `config` is the stored configuration with the runtime state, `index` the due time that the schedule index
has, `lastFired` are the minutes in `timer_trigger_last_fired`, and `enqueued` are the triggers.  `taken` and
`handled` say whether an entry was ever handed out, and handled. -/
structure TimerState where
  config : Option NodeConfig
  registered : Option ℚ := none
  index : Option (Option ℚ)
  phase : TimerPhase := .waiting
  lastFired : List MinuteKey := []
  enqueued : List String := []
  taken : Bool := false
  handled : Bool := false
  clock : ℚ
deriving DecidableEq

inductive TimerAction where
  /-- `_register_all_scheduled_nodes` -/
  | startUp (now : ℚ)
  /-- An edit of the configuration or of the runtime state. -/
  | write (cfg : Option NodeConfig)
  /-- `_refresh_scheduled_node`, behind an edit. -/
  | refresh (now : ℚ)
  /-- `wait_for_due` hands out the entry. -/
  | take (now : ℚ)
  /-- `_handle_registered_schedule`, up to the refresh. -/
  | handle (now : ℚ)
  /-- Its refresh. -/
  | refreshHandled (now : ℚ)
  /-- `_persist_scheduled_registry` -/
  | persist

namespace TimerState

variable (s : TimerState)

/-- The registration of the node as it is stored. -/
def built (now : ℚ) : Option ℚ := s.config.bind fun cfg => buildScheduledRegistration host cfg now

/-- `_unregister_scheduled_node` -/
def unregister : TimerState := { s with registered := none, index := some none, phase := .waiting }

/-- `_handle_timer_trigger`; `dueAt` is the due time of the entry. -/
def handleTimerTrigger (cfg : NodeConfig) (dueAt now : ℚ) : TimerState :=
  let minuteKey := (host.fromtimestamp dueAt).minuteKey
  if isTimerTriggerDue host cfg (host.fromtimestamp now) then
    if minuteKey ∈ s.lastFired then s
    else { s with
      enqueued := s.enqueued ++ [readOutputText host cfg]
      lastFired := s.lastFired ++ [minuteKey] }
  else s

/-- A step.  `parsed` is the moment that `ScheduleAt` names, which edits keep; the clock does not go back. -/
def step (parsed : DateTime) : TimerAction → Option TimerState
  | .startUp now =>
    if now < s.clock then none
    else
      match s.index, s.config with
      | some dueAt, some _ => some { s with registered := dueAt, clock := now }
      | some _, none => some { s with registered := none, clock := now }
      | none, _ => some { s with registered := s.built host now, index := some (s.built host now), clock := now }
  | .write none => some { s with config := none }
  | .write (some cfg) =>
    if parseTimerScheduleAt host cfg = some parsed then some { s with config := some cfg } else none
  | .refresh now =>
    if now < s.clock then none
    else some { s with registered := s.built host now, index := some (s.built host now), clock := now }
  | .take now =>
    match s.registered, s.phase with
    | some dueAt, .waiting =>
      if now < s.clock ∨ now < dueAt then none
      else some { s with registered := none, phase := .taken dueAt now, taken := true, clock := now }
    | _, _ => none
  | .handle now =>
    match s.phase with
    | .taken dueAt _ =>
      if now < s.clock then none
      else
        let s := { s with handled := true, clock := now }
        match s.config with
        | none => some s.unregister
        | some cfg =>
          if cfg = [] ∨ isStopped cfg then some s.unregister
          else some { s.handleTimerTrigger host cfg dueAt now with phase := .refreshing }
    | _ => none
  | .refreshHandled now =>
    match s.phase with
    | .refreshing =>
      if now < s.clock then none
      else some { s with registered := s.built host now, phase := .waiting, clock := now }
    | _ => none
  | .persist => some { s with index := some s.registered }

/-! ### The promise and its condition -/

/-- The minute of the moment on the clock of the host. -/
def scheduledMinute (parsed : DateTime) : MinuteKey := (host.fromtimestamp (host.timestamp parsed)).minuteKey

/-- What a step promises: the trigger was enqueued once at most, it is enqueued when the entry was handed out in
the scheduled minute, and a node that was handled is not registered with a due time that has passed. -/
def Rests (parsed : DateTime) (a : TimerAction) (s' : TimerState) : Prop :=
  s'.enqueued.length ≤ 1 ∧
  (∀ now dueAt takenAt, a = .handle now → s.phase = .taken dueAt takenAt →
    (host.fromtimestamp takenAt).minuteKey = scheduledMinute host parsed → s'.enqueued.length = 1) ∧
  (s.handled = true → ∀ dueAt, s'.registered = some dueAt → s'.registered ≠ s.registered → s'.clock < dueAt)

/-- The clock is not in the minute that begins at the moment, or the node is not to be registered. -/
def Outside (parsed : DateTime) (now : ℚ) : Prop :=
  now < host.timestamp parsed ∨ host.timestamp parsed + 60 ≤ now ∨ ∀ cfg, s.config = some cfg → isStopped cfg

/-- The condition on a step. -/
def Calm (parsed : DateTime) : TimerAction → Prop
  | .startUp now =>
    match s.index with
    | some (some dueAt) => s.config = none ∨ s.taken = false ∧ host.timestamp parsed ≤ dueAt
    | some none => True
    | none => s.taken = true → s.Outside host parsed now
  | .refresh now => s.taken = true → s.Outside host parsed now
  | .refreshHandled now => s.Outside host parsed now
  | .handle now => ∀ dueAt takenAt, s.phase = .taken dueAt takenAt →
      (host.fromtimestamp takenAt).minuteKey = scheduledMinute host parsed →
      (host.fromtimestamp now).minuteKey = parsed.minuteKey ∧ 1900 ≤ parsed.year ∧
      ∃ cfg, s.config = some cfg ∧ isStopped cfg = false
  | .write _ | .take _ | .persist => True

end TimerState

end

/-! ### Runs -/

namespace TimerState

variable {host : TimerHost} {parsed : DateTime} {s s' : TimerState}

structure Steady (host : TimerHost) (parsed : DateTime) (s : TimerState) : Prop where
  parses : ∀ cfg, s.config = some cfg → parseTimerScheduleAt host cfg = some parsed
  ahead : ∀ dueAt, s.registered = some dueAt → host.timestamp parsed ≤ dueAt
  entry : ∀ dueAt takenAt, s.phase = .taken dueAt takenAt → s.taken = true ∧ s.handled = false
  gone : s.taken = true → host.timestamp parsed ≤ s.clock ∧ s.registered = none
  handedOut : s.handled = true → s.taken = true
  fresh : s.handled = false → s.enqueued = [] ∧ s.lastFired = []
  once : s.enqueued.length ≤ 1

theorem Steady.built (steady : Steady host parsed s) {now dueAt : ℚ} (isBuilt : s.built host now = some dueAt) :
    host.timestamp parsed ≤ dueAt ∧ now < host.timestamp parsed + 60 ∧
      ∃ cfg, s.config = some cfg ∧ isStopped cfg = false := by
  obtain ⟨cfg, isConfig, isDue⟩ := Option.bind_eq_some_iff.mp isBuilt
  simp only [buildScheduledRegistration, timerScheduleDueAt, steady.parses cfg isConfig] at isDue
  split_ifs at isDue with stopped early late now
  · cases isDue
    exact ⟨now, not_le.mp late, cfg, isConfig, Bool.not_eq_true _ ▸ stopped⟩
  · cases isDue
    exact ⟨le_rfl, not_le.mp late, cfg, isConfig, Bool.not_eq_true _ ▸ stopped⟩

theorem Steady.built_none (steady : Steady host parsed s) {now : ℚ} (behind : host.timestamp parsed ≤ now)
    (outside : s.Outside host parsed now) : s.built host now = none := by
  cases isBuilt : s.built host now with
  | none => rfl
  | some dueAt =>
    obtain ⟨-, within, cfg, isConfig, going⟩ := steady.built isBuilt
    rcases outside with before | later | stopped
    · exact absurd behind (not_le.mpr before)
    · exact absurd within (not_lt.mpr later)
    · rw [stopped cfg isConfig] at going
      cases going

theorem Steady.register (steady : Steady host parsed s) {now : ℚ} (later : s.clock ≤ now)
    (outside : s.taken = true → s.Outside host parsed now) {index : Option (Option ℚ)} {phase : TimerPhase}
    (isPhase : phase = s.phase ∨ phase = .waiting) :
    Steady host parsed { s with registered := s.built host now, index, phase, clock := now } := by
  refine { steady with ahead := fun dueAt isBuilt => (steady.built isBuilt).1, entry := ?_, gone := ?_ }
  · intro dueAt takenAt isTaken
    rcases isPhase with same | waits
    · exact steady.entry dueAt takenAt (same.symm.trans isTaken)
    · cases waits.symm.trans isTaken
  · intro taken
    have behind := (steady.gone taken).1.trans later
    exact ⟨behind, steady.built_none behind (outside taken)⟩

theorem Steady.settle (steady : Steady host parsed s) {t : TimerState} (config : t.config = s.config)
    (registered : t.registered = none) (phase : ∀ dueAt takenAt, t.phase ≠ .taken dueAt takenAt)
    (taken : t.taken = true) (handled : t.handled = true) (behind : host.timestamp parsed ≤ t.clock)
    (once : t.enqueued.length ≤ 1) : Steady host parsed t where
  parses cfg isConfig := steady.parses cfg (config.symm.trans isConfig)
  ahead _ isDue := nomatch registered.symm.trans isDue
  entry dueAt takenAt isTaken := absurd isTaken (phase dueAt takenAt)
  gone _ := ⟨behind, registered⟩
  handedOut _ := taken
  fresh unhandled := nomatch handled.symm.trans unhandled
  once := once

theorem Steady.handle (steady : Steady host parsed s) {now dueAt takenAt : ℚ}
    (isTaken : s.phase = .taken dueAt takenAt) (later : s.clock ≤ now)
    (enabled : s.step host parsed (.handle now) = some s') (calm : s.Calm host parsed (.handle now)) :
    Steady host parsed s' ∧ s'.taken = true ∧
      ((host.fromtimestamp takenAt).minuteKey = scheduledMinute host parsed → s'.enqueued.length = 1) := by
  obtain ⟨taken, unhandled⟩ := steady.entry dueAt takenAt isTaken
  obtain ⟨behind, unregistered⟩ := steady.gone taken
  obtain ⟨nothing, notFired⟩ := steady.fresh unhandled
  have behindNow := behind.trans later
  have once : s.enqueued.length ≤ 1 := steady.once
  simp only [step, isTaken, if_neg (not_lt.mpr later)] at enabled
  cases isConfig : s.config with
  | none =>
    simp only [isConfig, Option.some.injEq] at enabled
    subst enabled
    refine ⟨steady.settle isConfig.symm rfl (fun _ _ found => by cases found) taken rfl behindNow
      once, taken, fun inMinute => ?_⟩
    obtain ⟨-, -, cfg, isCfg, -⟩ := calm dueAt takenAt isTaken inMinute
    cases isConfig.symm.trans isCfg
  | some cfg =>
    have parses := steady.parses cfg isConfig
    have named : cfg ≠ [] := by
      rintro rfl
      cases parses
    simp only [isConfig, named, false_or] at enabled
    split_ifs at enabled with stopped
    · cases enabled
      refine ⟨steady.settle isConfig.symm rfl (fun _ _ found => by cases found) taken rfl behindNow
      once, taken, fun inMinute => ?_⟩
      obtain ⟨-, -, cfg', isCfg, going⟩ := calm dueAt takenAt isTaken inMinute
      cases isConfig.symm.trans isCfg
      cases stopped.symm.trans going
    · cases enabled
      simp only [handleTimerTrigger, notFired, isTimerTriggerDue, parses, List.not_mem_nil, if_false]
      split_ifs with due
      · have one : (s.enqueued ++ [readOutputText host cfg]).length = 1 := by rw [nothing]; rfl
        exact ⟨steady.settle isConfig.symm unregistered (fun _ _ found => by cases found) taken rfl
          behindNow one.le, taken, fun _ => one⟩
      · refine ⟨steady.settle isConfig.symm unregistered (fun _ _ found => by cases found) taken rfl behindNow
      once, taken, fun inMinute => ?_⟩
        obtain ⟨same, year, -⟩ := calm dueAt takenAt isTaken inMinute
        exact absurd (by simp [same, year]) due

/-- A calm step keeps its promise and leaves the timer steady. -/
theorem Steady.step (steady : Steady host parsed s) {a : TimerAction} (enabled : s.step host parsed a = some s')
    (calm : s.Calm host parsed a) : Rests host s parsed a s' ∧ Steady host parsed s' := by
  -- Behind a hand-out the node is not registered at all.
  have promise (next : Steady host parsed s') (stays : s.taken = true → s'.taken = true)
      (fires : ∀ now dueAt takenAt, a = .handle now → s.phase = .taken dueAt takenAt →
        (host.fromtimestamp takenAt).minuteKey = scheduledMinute host parsed → s'.enqueued.length = 1) :
      Rests host s parsed a s' ∧ Steady host parsed s' := by
    refine ⟨⟨next.once, fires, fun handled dueAt isDue _ => ?_⟩, next⟩
    cases (next.gone (stays (steady.handedOut handled))).2.symm.trans isDue
  cases a with
  | startUp now =>
    simp only [TimerState.step] at enabled
    split_ifs at enabled with early
    have later : s.clock ≤ now := not_lt.mp early
    cases isIndex : s.index with
    | none =>
      simp only [Calm, isIndex] at calm
      simp only [isIndex, Option.some.injEq] at enabled
      subst enabled
      exact promise (steady.register later calm (.inl rfl)) id nofun
    | some entry =>
      simp only [Calm, isIndex] at calm
      simp only [isIndex] at enabled
      have unregistered : Steady host parsed { s with registered := none, clock := now } :=
        { steady with ahead := nofun, gone := fun taken => ⟨(steady.gone taken).1.trans later, rfl⟩ }
      rw [isIndex] at unregistered
      cases isConfig : s.config with
      | none =>
        rw [isConfig] at unregistered
        simp only [isConfig, Option.some.injEq] at enabled
        subst enabled
        exact promise unregistered id nofun
      | some cfg =>
        rw [isConfig] at unregistered
        simp only [isConfig, Option.some.injEq] at enabled
        subst enabled
        cases entry with
        | none => exact promise unregistered id nofun
        | some dueAt =>
          obtain ⟨fresh, ahead⟩ := calm.resolve_left (isConfig ▸ Option.some_ne_none cfg)
          refine promise { unregistered with ahead := ?_, gone := fun taken => ?_ } id nofun
          · rintro _ ⟨⟩
            exact ahead
          · cases fresh.symm.trans taken
  | write config =>
    cases config with
    | none =>
      cases enabled
      exact promise { steady with parses := nofun } id nofun
    | some cfg =>
      simp only [TimerState.step] at enabled
      split_ifs at enabled with same
      cases enabled
      refine promise { steady with parses := ?_ } id nofun
      rintro _ ⟨⟩
      exact same
  | refresh now =>
    simp only [TimerState.step] at enabled
    split_ifs at enabled with early
    cases enabled
    exact promise (steady.register (not_lt.mp early) calm (.inl rfl)) id nofun
  | take now =>
    simp only [TimerState.step] at enabled
    split at enabled
    · rename_i dueAt isDue isPhase
      split_ifs at enabled with early
      cases enabled
      obtain ⟨later, due⟩ := not_or.mp early
      have notTaken : s.handled = false := by
        rw [Bool.eq_false_iff]
        intro handled
        cases (steady.gone (steady.handedOut handled)).2.symm.trans isDue
      have behind := (steady.ahead dueAt isDue).trans (not_lt.mp due)
      refine promise { steady with
        ahead := nofun, entry := ?_, gone := fun _ => ⟨behind, rfl⟩, handedOut := fun _ => rfl } (fun _ => rfl) nofun
      intro _ _ _
      exact ⟨rfl, notTaken⟩
    · cases enabled
  | handle now =>
    have opened := enabled
    simp only [TimerState.step] at opened
    split at opened
    · rename_i dueAt takenAt isTaken
      split_ifs at opened with early
      obtain ⟨next, taken, fires⟩ := steady.handle isTaken (not_lt.mp early) enabled calm
      refine promise next (fun _ => taken) fun _ _ _ _ isTaken' => ?_
      cases isTaken.symm.trans isTaken'
      exact fires
    · cases opened
  | refreshHandled now =>
    simp only [TimerState.step] at enabled
    split at enabled
    · split_ifs at enabled with early
      cases enabled
      exact promise (steady.register (not_lt.mp early) (fun _ => calm) (.inr rfl)) id nofun
    · cases enabled
  | persist =>
    cases enabled
    exact promise { steady with } id nofun

/-- The scheduler starts with what the schedule index has of the node. -/
def start (config : NodeConfig) (index : Option (Option ℚ)) (clock : ℚ) : TimerState where
  config := some config
  index := index
  clock := clock

end TimerState

open TimerState

/-- **Along a run whose steps are calm a timer trigger fires once and comes to rest.** -/
theorem timer_rests (host : TimerHost) {parsed : DateTime} {config : NodeConfig}
    (isParsed : parseTimerScheduleAt host config = some parsed) (index : Option (Option ℚ)) (clock : ℚ)
    {actions : List TimerAction}
    (calm : Along (fun s a => s.step host parsed a) (fun s a _ => s.Calm host parsed a)
      (start config index clock) actions) :
    Along (fun s a => s.step host parsed a) (fun s a s' => s.Rests host parsed a s')
      (start config index clock) actions := by
  have steady : Steady host parsed (start config index clock) := by
    refine ⟨?_, nofun, nofun, nofun, nofun, fun _ => ⟨rfl, rfl⟩, Nat.zero_le 1⟩
    rintro _ ⟨⟩
    exact isParsed
  exact along_of_invariant (fun _ _ _ steady enabled calm => steady.step enabled calm) steady calm

/-- The first day of the clock, in a zone without an offset. -/
def firstDay : TimerHost where
  repr _ := ""
  strptime text format :=
    if text = "1970-01-01 00:00" ∧ format = "%Y-%m-%d %H:%M" then some ⟨1970, 1, 1, 0, 0, 0, none⟩ else none
  fromisoformat _ := none
  timestamp d := d.hour * 3600 + d.minute * 60 + d.second
  fromtimestamp t :=
    ⟨1970, 1, 1, t.floor.toNat / 3600, t.floor.toNat % 3600 / 60, t - t.floor / 60 * 60, none⟩

def midnight : DateTime := ⟨1970, 1, 1, 0, 0, 0, none⟩

def midnightTimer : NodeConfig := [("ScheduleAt", .str "1970-01-01 00:00"), ("OutputText", .str "go")]

theorem parse_midnight : parseTimerScheduleAt firstDay midnightTimer = some midnight := by decide +kernel

/-- The trigger of midnight has fired. -/
def firedAtMidnight : TimerState where
  config := some midnightTimer
  index := some (some 0)
  phase := .refreshing
  lastFired := [(1970, 1, 1, 0, 0)]
  enqueued := ["go"]
  taken := true
  handled := true
  clock := 0

theorem midnight_fires : run (fun s a => s.step firstDay midnight a) (start midnightTimer none 0)
    [.startUp 0, .take 0, .handle 0] = some firedAtMidnight := by
  decide +kernel

/-- The refresh comes when the minute has gone by. -/
theorem timer_rests_late :
    Along (fun s a => s.step firstDay midnight a) (fun s a s' => s.Rests firstDay midnight a s')
      (start midnightTimer none 0) [.startUp 0, .take 0, .handle 0, .refreshHandled 60] := by
  refine timer_rests firstDay parse_midnight none 0 ?_
  intro s enabled
  refine ⟨nofun, fun t taken => ⟨trivial, fun u handled => ⟨?_, ?_⟩⟩⟩
  · have first : (start midnightTimer none 0).step firstDay midnight (.startUp 0) =
        some { start midnightTimer none 0 with registered := some 0, index := some (some 0) } := by decide +kernel
    cases first.symm.trans enabled
    have second : TimerState.step firstDay
        { start midnightTimer none 0 with registered := some 0, index := some (some 0) } midnight (.take 0) =
          some { start midnightTimer none 0 with index := some (some 0), phase := .taken 0 0, taken := true } := by
      decide +kernel
    cases second.symm.trans taken
    rintro _ _ ⟨⟩ -
    exact ⟨by decide +kernel, by decide, midnightTimer, rfl, by decide +kernel⟩
  · have before : run (fun s a => s.step firstDay midnight a) (start midnightTimer none 0)
        [.startUp 0, .take 0, .handle 0] = some u := by
      rw [run_cons_eq_some]
      exact ⟨s, enabled, run_cons_eq_some.mpr ⟨t, taken, run_cons_eq_some.mpr ⟨u, handled, rfl⟩⟩⟩
    cases midnight_fires.symm.trans before
    refine fun v _ => ⟨.inr (.inl ?_), along_nil v⟩
    decide +kernel

/-- The trigger has fired, and the node is registered again for a moment that has passed. -/
theorem timer_spins :
    ¬ Along (fun s a => s.step firstDay midnight a) (fun s a s' => s.Rests firstDay midnight a s')
      (start midnightTimer none 0) ([.startUp 0, .take 0, .handle 0] ++ [.refreshHandled 1]) := by
  intro along
  have again : firedAtMidnight.step firstDay midnight (.refreshHandled 1) =
      some { firedAtMidnight with registered := some 1, phase := .waiting, clock := 1 } := by decide +kernel
  have rests := along.last midnight_fires again
  exact absurd (rests.2.2 rfl 1 rfl (by decide)) (lt_irrefl _)

end AgentPark.Nodes
