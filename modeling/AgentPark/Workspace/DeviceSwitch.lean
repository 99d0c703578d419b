import AgentPark.Lib.Execution
import AgentPark.Lib.PyText
import Mathlib.Data.List.Basic

/-!
# Switching the execution device of an agent run

The tools of an agent run on one device, which `switch_execution_device` replaces.  Tool operations
are counted in the device state of the agent.  A switch begins while none is counted and no console
session is unfinished, and refuses operations until it ends; between its begin and the replacement of
the runtime context it inspects the workspace on the new device.
-/

namespace AgentPark.Workspace

open Lib

/-! ### Contexts -/

/-- `WorkspaceInspection`; the project instructions go to the model alone. -/
structure WorkspaceInspection where
  workingPath : String
  platform : String
  shell : String
  timezone : String
  utcOffsetSeconds : Int
deriving DecidableEq

/-- `AgentRuntimeContext`, as far as the device of the run goes. -/
structure AgentRuntimeContext where
  nodeDirectory : String
  workspaceRoot : String
  workingPath : String
  remoteEnabled : Bool
  remoteWorkerId : String
  executionWorkspace : Option WorkspaceInspection
  graphWorkingPath : String
  shell : String
deriving DecidableEq

/-- What is read outside of the context: the settings of the agent and of its graph, the paths of the
process, and the directories of the host at that time. -/
structure Surroundings where
  configWorkingPath : String
  configGraphWorkingPath : String
  /-- `_read_graph_working_path` -/
  readGraphWorkingPath : String
  workspaceRoot : String
  cwd : String
  /-- `normpath(abspath(expanduser(…)))` -/
  absolute : String → String
  isDir : String → Bool

/-- `_first_non_empty` -/
def firstNonEmpty : List String → String
  | [] => ""
  | value :: values => if pyStrip value ≠ "" then pyStrip value else firstNonEmpty values

/-- `_normalized_path` -/
def normalizedPath (around : Surroundings) (value : String) : String :=
  if pyStrip value = "" then "" else around.absolute (pyStrip value)

/-- `resolve_agent_working_path_settings` -/
def resolveAgentWorkingPathSettings (around : Surroundings) (context : AgentRuntimeContext) :
    List String :=
  [firstNonEmpty [context.workingPath, around.configWorkingPath],
    firstNonEmpty [context.graphWorkingPath, around.configGraphWorkingPath,
      around.readGraphWorkingPath]]

/-- `resolve_agent_configured_working_path` -/
def resolveAgentConfiguredWorkingPath (around : Surroundings) (context : AgentRuntimeContext) :
    String :=
  let configured := firstNonEmpty (resolveAgentWorkingPathSettings around context)
  if configured ≠ "" ∧ context.remoteEnabled then configured else normalizedPath around configured

/-- `_resolve_local_default_directory` -/
def resolveLocalDefaultDirectory (around : Surroundings) (context : AgentRuntimeContext) :
    Except String String :=
  let root := normalizedPath around (firstNonEmpty
    [context.nodeDirectory, context.workspaceRoot, around.workspaceRoot, around.cwd])
  if around.isDir root then .ok root
  else .error ("Agent default working directory does not exist: " ++ root)

/-- `resolve_agent_working_directory` -/
def resolveAgentWorkingDirectory (around : Surroundings) (context : AgentRuntimeContext) :
    Except String String :=
  let root := resolveAgentConfiguredWorkingPath around context
  if root ≠ "" ∧ context.remoteEnabled then .ok root
  else if root ≠ "" ∧ ¬ around.isDir root then
    .error ("WorkingPath directory does not exist: " ++ root)
  else if root ≠ "" then .ok root
  else resolveLocalDefaultDirectory around context

/-! ### The inspection of a device -/

/-- `ExecutionDeviceDescriptor`, as far as a switch reads it. -/
structure ExecutionDeviceDescriptor where
  workerId : String
  online : Bool
  capabilities : List String
deriving DecidableEq

/-- `_inspect`, with the catalog and the answer of the device, both of which may raise. -/
def inspect (deviceId workingPath : String) (catalog : Except String (List ExecutionDeviceDescriptor))
    (answer : Except String WorkspaceInspection) : Except String WorkspaceInspection :=
  if pyStrip deviceId = "" then .error "device_id must be a non-empty catalog ID or local."
  else if pyStrip workingPath = "" then
    .error "working_path must be an absolute directory on the selected device."
  else if deviceId = "local" then answer
  else
    match catalog with
    | .error error => .error error
    | .ok workers =>
      match workers.filter fun worker => worker.workerId = deviceId with
      | [worker] =>
        if worker.online = false then .error "Execution device is offline."
        else if "inspect_workspace" ∉ worker.capabilities then
          .error "Device needs an AgentPark/Remote update: inspect_workspace is unavailable."
        else answer
      | _ => .error
          "Execution device is not present uniquely in the authorized worker catalog."

/-! ### The run of an agent -/

/-- `CONTROL_TOOLS` -/
def controlTools : List String :=
  ["list_execution_devices", "inspect_execution_workspace", "switch_execution_device"]

/-- `ExecutionDeviceState` -/
structure ExecutionDeviceState where
  activeOperations : Int := 0
  switching : Bool := false
  revision : Nat := 0
deriving DecidableEq

/-- Where a tool operation is. -/
inductive OperationState where
  | running
  | ended
  | refused (error : String)
deriving DecidableEq

/-- An `execution_operation`.  `counted`: it has joined the active operations. -/
structure Operation where
  toolName : String
  counted : Bool
  state : OperationState
deriving DecidableEq

/-- `_current` -/
structure Current where
  deviceId : String
  workingPath : String
  revision : Nat
  workspace : Option WorkspaceInspection
deriving DecidableEq

/-- Where a call of `switch_execution_device` is.  `leaving`: it has still to give up `switching`. -/
inductive SwitchPhase where
  | checked
  | reported (previous : Current)
  | inspected (previous : Current) (inspection : WorkspaceInspection)
  | ready (previous : Current) (inspection : WorkspaceInspection)
  | leaving (result : Except String (Current × Current))
  | done (result : Except String (Current × Current))
deriving DecidableEq

structure SwitchCall where
  deviceId : String
  workingPath : String
  phase : SwitchPhase
deriving DecidableEq

/-- `ConsoleSessionRegistry`, with whether each session is done. -/
structure ConsoleSessionRegistry where
  sessions : List Bool
  closed : Bool
deriving DecidableEq

/-- An agent with what is going on in its run. -/
structure AgentRun where
  context : AgentRuntimeContext
  /-- `_execution_device_state` -/
  device : Option ExecutionDeviceState
  /-- `_console_session_registry` -/
  registry : Option ConsoleSessionRegistry
  operations : List Operation
  switches : List SwitchCall
deriving DecidableEq

/-- `device_state` -/
def deviceState (s : AgentRun) : AgentRun :=
  match s.device with
  | some _ => s
  | none => { s with device := some {} }

/-- `bind_agent_runtime_context` -/
def bindAgentRuntimeContext (s : AgentRun) (context : AgentRuntimeContext) : AgentRun :=
  { deviceState s with context }

/-- A run begins with an agent that the context is bound to. -/
def AgentRun.bound (context : AgentRuntimeContext) : AgentRun :=
  bindAgentRuntimeContext
    { context, device := none, registry := none, operations := [], switches := [] } context

def AgentRun.modifyDevice (s : AgentRun) (f : ExecutionDeviceState → ExecutionDeviceState) :
    AgentRun :=
  { s with device := s.device.map f }

def AgentRun.sessions (s : AgentRun) : List Bool :=
  (s.registry.map ConsoleSessionRegistry.sessions).getD []

/-- What a step of a switch reads. -/
structure SwitchReadings where
  around : Surroundings
  catalog : Except String (List ExecutionDeviceDescriptor)
  answer : Except String WorkspaceInspection
  cancelRequested : Bool

/-- `_current` -/
def current (around : Surroundings) (context : AgentRuntimeContext) (revision : Nat) :
    Except String Current :=
  match resolveAgentWorkingDirectory around context with
  | .error error => .error error
  | .ok workingPath => .ok {
      deviceId := if context.remoteEnabled then context.remoteWorkerId else "local"
      workingPath
      revision
      workspace := context.executionWorkspace }

/-- The context that a switch binds. -/
def updated (context : AgentRuntimeContext) (deviceId : String) (inspection : WorkspaceInspection) :
    AgentRuntimeContext :=
  { context with
    remoteEnabled := deviceId ≠ "local"
    remoteWorkerId := if deviceId = "local" then "" else deviceId
    workingPath := inspection.workingPath
    shell := inspection.shell
    executionWorkspace := some inspection }

/-- What happens in a run: tool operations and console sessions begin and end, a switch is called, and
the call goes on. -/
inductive DeviceAction where
  | begin_ (toolName : String)
  | end_ (operation : Nat)
  | startSession (operation : Nat)
  | endSession (session : Nat)
  | closeSessions
  | switch (deviceId workingPath : String) (expectedRevision : Option Int)
  | advance (call : Nat) (readings : SwitchReadings)

/-- `execution_operation` -/
def executionOperation (s : AgentRun) (toolName : String) : AgentRun :=
  match s.device with
  | none =>
    { s with
      operations := s.operations ++ [{ toolName, counted := false, state := .running }] }
  | some device =>
    if toolName ∈ controlTools then
      { s with
        operations := s.operations ++ [{ toolName, counted := false, state := .running }] }
    else if device.switching then
      { s with
        operations := s.operations ++ [{
          toolName
          counted := false
          state := .refused "Execution device switch is in progress; wait for its result before running tools." }] }
    else
      { s with
        device := some { device with activeOperations := device.activeOperations + 1 }
        operations := s.operations ++ [{ toolName, counted := true, state := .running }] }

/-- The end of `execution_operation`. -/
def endOperation (s : AgentRun) (n : Nat) : Option AgentRun :=
  match s.operations[n]? with
  | some { toolName, counted, state := .running } =>
    let ended := { s with
      operations := s.operations.set n { toolName, counted, state := .ended } }
    some (if counted then
      ended.modifyDevice fun device =>
        { device with activeOperations := device.activeOperations - 1 }
    else ended)
  | _ => none

/-- `start_console_session`, within its operation. -/
def startConsoleSession (s : AgentRun) (operation : Nat) : Option AgentRun :=
  match s.operations[operation]? with
  | some { toolName := "start_console_session", counted := _, state := .running } =>
    if s.context.remoteEnabled then some s
    else
      let registry := s.registry.getD { sessions := [], closed := false }
      if registry.closed ∨ registry.sessions.length ≥ 128 ∨ registry.sessions.count false ≥ 8 then
        some { s with registry := some registry }
      else
        some { s with
          registry := some { registry with sessions := registry.sessions ++ [false] } }
  | _ => none

/-- The begin of `switching_device`: a call that is refused has changed nothing. -/
def switchingDevice (s : AgentRun) (deviceId workingPath : String) (expectedRevision : Option Int) :
    AgentRun :=
  let s := deviceState s
  let device := s.device.getD {}
  let refuse error :=
    { s with switches := s.switches ++ [{ deviceId, workingPath, phase := .done (.error error) }] }
  if expectedRevision ≠ some (device.revision : Int) then
    refuse "Execution revision changed; list_execution_devices before switching again."
  else if device.switching = true ∨ device.activeOperations ≠ 0 then
    refuse "Tools are still running; wait for them to finish before switching devices."
  else if false ∈ s.sessions then
    refuse "A console session is still running; finish or stop it before switching devices."
  else
    { s with
      device := some { device with switching := true }
      switches := s.switches ++ [{ deviceId, workingPath, phase := .checked }] }

def AgentRun.setPhase (s : AgentRun) (n : Nat) (call : SwitchCall) (phase : SwitchPhase) : AgentRun :=
  { s with switches := s.switches.set n { call with phase } }

/-- The steps of `switch_execution_device` after the begin of `switching_device`. -/
def switchExecutionDevice (s : AgentRun) (n : Nat) (readings : SwitchReadings) : Option AgentRun :=
  match s.switches[n]?, s.device with
  | some call, some device =>
    match call.phase with
    | .checked =>
      match current readings.around s.context device.revision with
      | .error error => some (s.setPhase n call (.leaving (.error error)))
      | .ok previous => some (s.setPhase n call (.reported previous))
    | .reported previous =>
      match inspect call.deviceId call.workingPath readings.catalog readings.answer with
      | .error error => some (s.setPhase n call (.leaving (.error error)))
      | .ok inspection => some (s.setPhase n call (.inspected previous inspection))
    | .inspected previous inspection =>
      if readings.cancelRequested then
        some (s.setPhase n call (.leaving (.error "Operation cancelled.")))
      else some (s.setPhase n call (.ready previous inspection))
    | .ready previous inspection =>
      -- Under the lock: the context, the revision and then the report.
      let context := updated s.context call.deviceId inspection
      let revision := device.revision + 1
      let s := { bindAgentRuntimeContext s context with device := some { device with revision } }
      match current readings.around context revision with
      | .error error => some (s.setPhase n call (.leaving (.error error)))
      | .ok now => some (s.setPhase n call (.leaving (.ok (previous, now))))
    | .leaving result =>
      some ((s.setPhase n call (.done result)).modifyDevice fun device =>
        { device with switching := false })
    | .done _ => none
  | _, _ => none

/-- The steps, in any order. -/
def deviceStep (s : AgentRun) : DeviceAction → Option AgentRun
  | .begin_ toolName => some (executionOperation s toolName)
  | .end_ operation => endOperation s operation
  | .startSession operation => startConsoleSession s operation
  | .endSession session =>
    match s.registry with
    | none => none
    | some registry =>
      some { s with
        registry := some { registry with sessions := registry.sessions.set session true } }
  | .closeSessions =>
    some { s with registry := s.registry.map fun registry => { registry with closed := true } }
  | .switch deviceId workingPath expectedRevision =>
    some (switchingDevice s deviceId workingPath expectedRevision)
  | .advance call readings => switchExecutionDevice s call readings

/-- The directory of the new context can be resolved when the switch reports it. -/
def reports (s : AgentRun) : DeviceAction → Bool
  | .advance n readings =>
    match s.switches[n]? with
    | some { deviceId, workingPath := _, phase := .ready _ inspection } =>
      (resolveAgentWorkingDirectory readings.around (updated s.context deviceId inspection)).isOk
    | _ => true
  | _ => true

/-- The directory of the new context can be resolved when the switch reports it. -/
def Reports (s : AgentRun) (action : DeviceAction) : Prop := reports s action = true

instance (s : AgentRun) (action : DeviceAction) : Decidable (Reports s action) :=
  inferInstanceAs (Decidable (_ = _))

/-! ### The barrier -/

def Operation.running (operation : Operation) : Bool := operation.state = .running

/-- The operation is one of the active operations. -/
def Operation.active (operation : Operation) : Bool := operation.counted && operation.running

/-- The call has passed the check of `switching_device` and has not given up `switching`. -/
def SwitchCall.underway (call : SwitchCall) : Bool :=
  match call.phase with
  | .done _ => false
  | _ => true

/-- The call returns its report, or has returned it. -/
def SwitchCall.succeeded (call : SwitchCall) : Bool :=
  match call.phase with
  | .leaving (.ok _) => true
  | .done (.ok _) => true
  | _ => false

/-- What the device state counts, and that a switch excludes operations and sessions. -/
structure Barrier (s : AgentRun) (device : ExecutionDeviceState) : Prop where
  isDevice : s.device = some device
  active : device.activeOperations = (s.operations.countP Operation.active : Int)
  counted : ∀ operation ∈ s.operations, operation.running = true →
    operation.counted = true ∨ operation.toolName ∈ controlTools
  single : s.switches.countP SwitchCall.underway = device.switching.toNat
  revision : device.revision = s.switches.countP SwitchCall.succeeded
  exclusive : device.switching = true →
    s.operations.countP Operation.active = 0 ∧ false ∉ s.sessions

theorem barrier_bound (context : AgentRuntimeContext) : Barrier (.bound context) {} where
  isDevice := rfl
  active := rfl
  counted := nofun
  single := rfl
  revision := rfl
  exclusive := nofun

section

variable {s t : AgentRun} {device : ExecutionDeviceState}

theorem countP_concat {α : Type} (p : α → Bool) (xs : List α) (x : α) :
    (xs ++ [x]).countP p = xs.countP p + (p x).toNat := by
  rw [List.countP_append, List.countP_singleton]
  cases p x <;> rfl

theorem countP_replaced {α : Type} (p : α → Bool) {xs : List α} {n : Nat} {x : α} (y : α)
    (there : xs[n]? = some x) :
    (xs.set n y).countP p + (p x).toNat = xs.countP p + (p y).toNat := by
  obtain ⟨lt, rfl⟩ := List.getElem?_eq_some_iff.mp there
  have positive : p xs[n] = true → 0 < xs.countP p :=
    fun holds => List.countP_pos_iff.mpr ⟨_, List.getElem_mem lt, holds⟩
  have isNat : ∀ b : Bool, (if b = true then 1 else 0) = b.toNat := by decide
  rw [List.countP_set lt, isNat, isNat]
  cases was : p xs[n] with
  | true =>
    have := positive was
    rw [Bool.toNat_true]
    omega
  | false =>
    rw [Bool.toNat_false]
    omega

theorem Barrier.deviceState (barrier : Barrier s device) : deviceState s = s := by
  rw [Workspace.deviceState, barrier.isDevice]

theorem Barrier.begin_ (barrier : Barrier s device) (toolName : String) :
    ∃ device', Barrier (executionOperation s toolName) device' := by
  rw [executionOperation, barrier.isDevice]
  dsimp only
  by_cases control : toolName ∈ controlTools
  · rw [if_pos control]
    refine ⟨device, { barrier with
      isDevice := rfl, active := ?_, counted := ?_, exclusive := ?_ }⟩
    · rw [countP_concat]
      exact barrier.active
    · intro operation mem running
      rcases List.mem_append.mp mem with old | isNew
      · exact barrier.counted operation old running
      · rw [List.mem_singleton] at isNew
        subst isNew
        exact .inr control
    · intro switching
      rw [countP_concat]
      exact barrier.exclusive switching
  rw [if_neg control]
  by_cases switching : device.switching = true
  · rw [if_pos switching]
    refine ⟨device, { barrier with
      isDevice := rfl, active := ?_, counted := ?_, exclusive := ?_ }⟩
    · rw [countP_concat]
      exact barrier.active
    · intro operation mem running
      rcases List.mem_append.mp mem with old | isNew
      · exact barrier.counted operation old running
      · rw [List.mem_singleton] at isNew
        subst isNew
        cases running
    · intro switching
      rw [countP_concat]
      exact barrier.exclusive switching
  · rw [if_neg switching]
    refine ⟨_, { barrier with
      isDevice := rfl, active := ?_, counted := ?_, exclusive := ?_ }⟩
    · have isActive : Operation.active { toolName, counted := true, state := .running } = true := rfl
      rw [countP_concat, isActive, Bool.toNat_true]
      have := barrier.active
      dsimp only
      omega
    · intro operation mem running
      rcases List.mem_append.mp mem with old | isNew
      · exact barrier.counted operation old running
      · rw [List.mem_singleton] at isNew
        subst isNew
        exact .inl rfl
    · intro switching'
      exact absurd switching' switching

theorem Barrier.end_ (barrier : Barrier s device) {n : Nat} (ends : endOperation s n = some t) :
    ∃ device', Barrier t device' := by
  rw [endOperation] at ends
  split at ends
  · rename_i toolName counted there
    rw [Option.some.injEq] at ends
    subst ends
    have replaced := countP_replaced Operation.active
      { toolName, counted, state := .ended } there
    have others : ∀ operation ∈ s.operations.set n { toolName, counted, state := .ended },
        operation.running = true →
          operation.counted = true ∨ operation.toolName ∈ controlTools := by
      intro operation mem running
      rcases List.mem_or_eq_of_mem_set mem with old | rfl
      · exact barrier.counted operation old running
      · cases running
    have notActive : Operation.active { toolName, counted, state := .ended } = false :=
      Bool.and_false counted
    rw [notActive, Bool.toNat_false] at replaced
    by_cases joined : counted = true
    · have wasActive : Operation.active { toolName, counted, state := .running } = true := by
        rw [joined]
        rfl
      rw [wasActive, Bool.toNat_true] at replaced
      rw [if_pos joined]
      refine ⟨{ device with activeOperations := device.activeOperations - 1 }, { barrier with
        isDevice := ?_, active := ?_, counted := others, exclusive := ?_ }⟩
      · rw [AgentRun.modifyDevice, barrier.isDevice]
        rfl
      · have := barrier.active
        dsimp only [AgentRun.modifyDevice]
        omega
      · intro switching
        have none := (barrier.exclusive switching).1
        omega
    · have wasNot : Operation.active { toolName, counted, state := .running } = false := by
        rw [Bool.not_eq_true _ |>.mp joined]
        rfl
      rw [wasNot, Bool.toNat_false] at replaced
      rw [if_neg joined]
      refine ⟨device, { barrier with active := ?_, counted := others, exclusive := ?_ }⟩
      · have := barrier.active
        dsimp only
        omega
      · intro switching
        have := barrier.exclusive switching
        dsimp only
        refine ⟨by omega, this.2⟩
  · cases ends

theorem Barrier.sessions (barrier : Barrier s device) {registry : Option ConsoleSessionRegistry}
    (sessions : device.switching = true →
      false ∉ (registry.map ConsoleSessionRegistry.sessions).getD []) :
    Barrier { s with registry } device :=
  { barrier with
    exclusive := fun switching => ⟨(barrier.exclusive switching).1, sessions switching⟩ }

theorem Barrier.startSession (barrier : Barrier s device) {n : Nat}
    (starts : startConsoleSession s n = some t) : Barrier t device := by
  rw [startConsoleSession] at starts
  split at starts
  · rename_i counted there
    have mem := List.mem_of_getElem? there
    have notControl : "start_console_session" ∉ controlTools := by decide
    have notSwitching : device.switching ≠ true := by
      intro switching
      have isCounted : counted = true := (barrier.counted _ mem rfl).resolve_right notControl
      have none := List.countP_eq_zero.mp (barrier.exclusive switching).1 _ mem
      rw [isCounted] at none
      exact none rfl
    split at starts
    · cases starts
      exact barrier
    · dsimp only at starts
      split at starts <;>
      · cases starts
        exact barrier.sessions fun switching => absurd switching notSwitching
  · cases starts

theorem Barrier.switch (barrier : Barrier s device) (deviceId workingPath : String)
    (expectedRevision : Option Int) :
    ∃ device', Barrier (switchingDevice s deviceId workingPath expectedRevision) device' := by
  have same := barrier.deviceState
  have refused : ∀ error, Barrier { s with
      switches := s.switches ++
        [{ deviceId, workingPath, phase := .done (.error error) }] } device := fun error =>
    { barrier with
      single := by
        rw [countP_concat]
        exact barrier.single
      revision := by
        rw [countP_concat]
        exact barrier.revision }
  rw [switchingDevice, same, barrier.isDevice]
  dsimp only [Option.getD_some]
  split
  · exact ⟨device, barrier.isDevice ▸ refused _⟩
  split
  · exact ⟨device, barrier.isDevice ▸ refused _⟩
  split
  · exact ⟨device, barrier.isDevice ▸ refused _⟩
  rename_i idle done
  rw [not_or, not_not] at idle
  refine ⟨{ device with switching := true }, { barrier with
    isDevice := rfl, single := ?_, revision := ?_, exclusive := ?_ }⟩
  · rw [countP_concat, barrier.single, Bool.not_eq_true _ |>.mp idle.1]
    rfl
  · rw [countP_concat]
    exact barrier.revision
  · intro _
    have := barrier.active
    refine ⟨?_, done⟩
    dsimp only
    omega

theorem Barrier.setPhase (barrier : Barrier s device) {n : Nat} {call : SwitchCall}
    (there : s.switches[n]? = some call) {phase : SwitchPhase}
    (underway : SwitchCall.underway { call with phase } = call.underway)
    (succeeded : SwitchCall.succeeded { call with phase } = call.succeeded) :
    Barrier (s.setPhase n call phase) device :=
  { barrier with
    single := by
      have := countP_replaced SwitchCall.underway { call with phase } there
      have := barrier.single
      dsimp only [AgentRun.setPhase]
      rw [underway] at *
      omega
    revision := by
      have := countP_replaced SwitchCall.succeeded { call with phase } there
      have := barrier.revision
      dsimp only [AgentRun.setPhase]
      rw [succeeded] at *
      omega }

theorem isOk_current (around : Surroundings) (context : AgentRuntimeContext) (revision : Nat) :
    (current around context revision).isOk =
      (resolveAgentWorkingDirectory around context).isOk := by
  unfold current
  cases resolveAgentWorkingDirectory around context <;> rfl

theorem Barrier.commit (barrier : Barrier s device) {n : Nat} {deviceId workingPath : String}
    {previous : Current} {inspection : WorkspaceInspection}
    (there : s.switches[n]? = some { deviceId, workingPath, phase := .ready previous inspection })
    (context : AgentRuntimeContext) (now : Current) :
    Barrier ({ s with
      context, device := some { device with revision := device.revision + 1 } }.setPhase n
        { deviceId, workingPath, phase := .ready previous inspection }
        (.leaving (.ok (previous, now)))) { device with revision := device.revision + 1 } :=
  { barrier with
    isDevice := rfl
    single := by
      have replaced := countP_replaced SwitchCall.underway
        { deviceId, workingPath, phase := .leaving (.ok (previous, now)) } there
      have same : SwitchCall.underway
          { deviceId, workingPath, phase := .leaving (.ok (previous, now)) } =
        SwitchCall.underway { deviceId, workingPath, phase := .ready previous inspection } := rfl
      have := barrier.single
      dsimp only [AgentRun.setPhase]
      rw [same] at replaced
      omega
    revision := by
      have replaced := countP_replaced SwitchCall.succeeded
        { deviceId, workingPath, phase := .leaving (.ok (previous, now)) } there
      have was : SwitchCall.succeeded
          { deviceId, workingPath, phase := .ready previous inspection } = false := rfl
      have isNow : SwitchCall.succeeded
          { deviceId, workingPath, phase := .leaving (.ok (previous, now)) } = true := rfl
      rw [was, isNow, Bool.toNat_true, Bool.toNat_false] at replaced
      have := barrier.revision
      dsimp only [AgentRun.setPhase]
      omega }

theorem Barrier.advance (barrier : Barrier s device) {n : Nat} {readings : SwitchReadings}
    (reports : Reports s (.advance n readings))
    (steps : switchExecutionDevice s n readings = some t) : ∃ device', Barrier t device' := by
  rw [switchExecutionDevice, barrier.isDevice] at steps
  cases there : s.switches[n]? with
  | none =>
    rw [there] at steps
    cases steps
  | some call =>
    obtain ⟨deviceId, workingPath, phase⟩ := call
    rw [there] at steps
    cases phase with
    | checked | reported | inspected =>
      dsimp only at steps
      split at steps <;>
      · cases steps
        exact ⟨device, barrier.setPhase there rfl rfl⟩
    | ready previous inspection =>
      have isReady := reports
      rw [Reports, Workspace.reports, there] at isReady
      dsimp only at isReady steps
      rw [bindAgentRuntimeContext, barrier.deviceState] at steps
      generalize updated s.context deviceId inspection = context at isReady steps
      cases isCurrent : current readings.around context (device.revision + 1) with
      | error error =>
        rw [← isOk_current _ _ (device.revision + 1), isCurrent] at isReady
        cases isReady
      | ok now =>
        rw [isCurrent] at steps
        cases steps
        exact ⟨_, barrier.commit there context now⟩
    | leaving result =>
      cases steps
      refine ⟨{ device with switching := false }, { barrier with
        isDevice := ?_, single := ?_, revision := ?_, exclusive := nofun }⟩
      · rw [AgentRun.modifyDevice, AgentRun.setPhase, barrier.isDevice]
        rfl
      · have replaced := countP_replaced SwitchCall.underway
          { deviceId, workingPath, phase := .done result } there
        have was : SwitchCall.underway { deviceId, workingPath, phase := .leaving result } = true :=
          rfl
        have isNow : SwitchCall.underway { deviceId, workingPath, phase := .done result } = false :=
          rfl
        rw [was, isNow, Bool.toNat_true, Bool.toNat_false, barrier.single] at replaced
        have := Bool.toNat_le device.switching
        dsimp only [AgentRun.setPhase, AgentRun.modifyDevice]
        rw [Bool.toNat_false]
        omega
      · have replaced := countP_replaced SwitchCall.succeeded
          { deviceId, workingPath, phase := .done result } there
        have same : SwitchCall.succeeded { deviceId, workingPath, phase := .done result } =
            SwitchCall.succeeded { deviceId, workingPath, phase := .leaving result } := by
          cases result <;> rfl
        rw [same] at replaced
        have := barrier.revision
        dsimp only [AgentRun.setPhase, AgentRun.modifyDevice]
        omega
    | done result => cases steps

/-- An action that can report its context keeps the counts and the barrier. -/
theorem Barrier.step (barrier : Barrier s device) {action : DeviceAction}
    (reports : Reports s action) (steps : deviceStep s action = some t) :
    ∃ device', Barrier t device' := by
  cases action with
  | begin_ toolName =>
    cases steps
    exact barrier.begin_ toolName
  | end_ n => exact barrier.end_ steps
  | startSession n => exact ⟨device, barrier.startSession steps⟩
  | endSession n =>
    rw [deviceStep] at steps
    cases isRegistry : s.registry with
    | none =>
      rw [isRegistry] at steps
      cases steps
    | some registry =>
      rw [isRegistry] at steps
      cases steps
      refine ⟨device, barrier.sessions fun switching mem => ?_⟩
      have done := (barrier.exclusive switching).2
      rw [AgentRun.sessions, isRegistry] at done
      rcases List.mem_or_eq_of_mem_set mem with old | same
      · exact done old
      · cases same
  | closeSessions =>
    cases steps
    refine ⟨device, barrier.sessions fun switching => ?_⟩
    have done := (barrier.exclusive switching).2
    rw [AgentRun.sessions] at done
    rw [Option.map_map]
    exact done
  | switch deviceId workingPath expectedRevision =>
    cases steps
    exact barrier.switch deviceId workingPath expectedRevision
  | advance n readings => exact barrier.advance reports steps

def AgentRun.revision (s : AgentRun) : Option Nat := s.device.map ExecutionDeviceState.revision

theorem Barrier.advance_changes (barrier : Barrier s device) {n : Nat} {readings : SwitchReadings}
    (reports : Reports s (.advance n readings))
    (steps : switchExecutionDevice s n readings = some t) :
    t.context = s.context ∧ t.revision = s.revision ∨
      (∃ call, s.switches[n]? = some call ∧ call.underway = true ∧ call.succeeded = false) ∧
        ∃ call, t.switches[n]? = some call ∧ call.succeeded = true := by
  rw [switchExecutionDevice, barrier.isDevice] at steps
  cases there : s.switches[n]? with
  | none =>
    rw [there] at steps
    cases steps
  | some call =>
    obtain ⟨deviceId, workingPath, phase⟩ := call
    rw [there] at steps
    cases phase with
    | checked | reported | inspected =>
      dsimp only at steps
      split at steps <;>
      · cases steps
        exact .inl ⟨rfl, rfl⟩
    | ready previous inspection =>
      have isReady := reports
      rw [Reports, Workspace.reports, there] at isReady
      dsimp only at isReady steps
      rw [bindAgentRuntimeContext, barrier.deviceState] at steps
      generalize updated s.context deviceId inspection = context at isReady steps
      cases isCurrent : current readings.around context (device.revision + 1) with
      | error error =>
        rw [← isOk_current _ _ (device.revision + 1), isCurrent] at isReady
        cases isReady
      | ok now =>
        rw [isCurrent] at steps
        cases steps
        have lt := (List.getElem?_eq_some_iff.mp there).1
        exact .inr ⟨⟨_, rfl, rfl, rfl⟩, _, List.getElem?_set_self lt, rfl⟩
    | leaving result =>
      cases steps
      refine .inl ⟨rfl, ?_⟩
      rw [AgentRun.revision, AgentRun.modifyDevice, Option.map_map]
      rfl
    | done result => cases steps

theorem executionOperation_keeps (s : AgentRun) (toolName : String) :
    (executionOperation s toolName).context = s.context ∧
      (executionOperation s toolName).revision = s.revision := by
  unfold executionOperation
  split
  · exact ⟨rfl, rfl⟩
  · rename_i device isDevice
    split
    · exact ⟨rfl, rfl⟩
    · split
      · exact ⟨rfl, rfl⟩
      · rw [AgentRun.revision, AgentRun.revision, isDevice]
        exact ⟨rfl, rfl⟩

theorem Barrier.switch_keeps (barrier : Barrier s device) (deviceId workingPath : String)
    (expectedRevision : Option Int) :
    (switchingDevice s deviceId workingPath expectedRevision).context = s.context ∧
      (switchingDevice s deviceId workingPath expectedRevision).revision = s.revision := by
  have isRevision : s.revision = some device.revision := by
    rw [AgentRun.revision, barrier.isDevice]
    rfl
  rw [isRevision, switchingDevice, barrier.deviceState, barrier.isDevice]
  dsimp only [Option.getD_some]
  split
  · exact ⟨rfl, rfl⟩
  split
  · exact ⟨rfl, rfl⟩
  split <;> exact ⟨rfl, rfl⟩

theorem Barrier.changes (barrier : Barrier s device) {action : DeviceAction}
    (reports : Reports s action) (steps : deviceStep s action = some t)
    (changed : t.context ≠ s.context ∨ t.revision ≠ s.revision) :
    ∃ n readings, action = .advance n readings ∧
      (∃ call, s.switches[n]? = some call ∧ call.underway = true ∧ call.succeeded = false) ∧
        ∃ call, t.switches[n]? = some call ∧ call.succeeded = true := by
  have absurd_ : t.context = s.context ∧ t.revision = s.revision → False := fun ⟨same, same'⟩ =>
    changed.elim (fun differs => differs same) (fun differs => differs same')
  cases action with
  | begin_ toolName =>
    cases steps
    exact (absurd_ (executionOperation_keeps s toolName)).elim
  | end_ n =>
    rw [deviceStep, endOperation] at steps
    split at steps
    · rename_i toolName counted _
      cases steps
      refine (absurd_ ?_).elim
      cases counted with
      | true =>
        refine ⟨rfl, ?_⟩
        rw [if_pos rfl, AgentRun.revision, AgentRun.modifyDevice, Option.map_map]
        rfl
      | false => exact ⟨rfl, rfl⟩
    · cases steps
  | startSession n =>
    rw [deviceStep, startConsoleSession] at steps
    split at steps
    · split at steps
      · cases steps
        exact (absurd_ ⟨rfl, rfl⟩).elim
      · dsimp only at steps
        split at steps <;>
        · cases steps
          exact (absurd_ ⟨rfl, rfl⟩).elim
    · cases steps
  | endSession n =>
    rw [deviceStep] at steps
    split at steps
    · cases steps
    · cases steps
      exact (absurd_ ⟨rfl, rfl⟩).elim
  | closeSessions =>
    cases steps
    exact (absurd_ ⟨rfl, rfl⟩).elim
  | switch deviceId workingPath expectedRevision =>
    cases steps
    exact (absurd_ (barrier.switch_keeps deviceId workingPath expectedRevision)).elim
  | advance n readings =>
    rcases barrier.advance_changes reports steps with same | success
    · exact (absurd_ same).elim
    · exact ⟨n, readings, rfl, success⟩

theorem Barrier.excludes (barrier : Barrier s device) {call : SwitchCall} (mem : call ∈ s.switches)
    (underway : call.underway = true) :
    (∀ operation ∈ s.operations, operation.running = true → operation.toolName ∈ controlTools) ∧
      false ∉ s.sessions := by
  have switching : device.switching = true := by
    have positive : 0 < s.switches.countP SwitchCall.underway :=
      List.countP_pos_iff.mpr ⟨call, mem, underway⟩
    rw [barrier.single] at positive
    by_contra off
    rw [Bool.not_eq_true _ |>.mp off] at positive
    exact absurd positive (Nat.lt_irrefl 0)
  obtain ⟨none, done⟩ := barrier.exclusive switching
  refine ⟨fun operation isOperation running => ?_, done⟩
  refine (barrier.counted operation isOperation running).resolve_left fun counted => ?_
  have inactive := List.countP_eq_zero.mp none operation isOperation
  rw [Operation.active, counted, running] at inactive
  exact inactive rfl

theorem Barrier.accepts (barrier : Barrier s device)
    (ended : ∀ call ∈ s.switches, call.underway = false) (toolName : String) :
    (executionOperation s toolName).operations = s.operations ++
      [{ toolName, counted := toolName ∉ controlTools, state := .running }] := by
  have idle : device.switching = false := by
    have none : s.switches.countP SwitchCall.underway = 0 := by
      rw [List.countP_eq_zero]
      intro call mem
      rw [ended call mem]
      exact Bool.false_ne_true
    rw [barrier.single] at none
    by_contra on
    rw [Bool.not_eq_false _ |>.mp on] at none
    cases none
  rw [executionOperation, barrier.isDevice]
  dsimp only
  by_cases control : toolName ∈ controlTools
  · rw [if_pos control, decide_eq_false (not_not.mpr control)]
  · rw [if_neg control, idle, if_neg Bool.false_ne_true, decide_eq_true control]

end

/-- After every run of an agent in which no switch fails in its report: at most one switch is
underway; while one is, no operation but of the control tools is running and no console session is
unfinished; the revision counts the switches that succeed; when none is underway every tool runs; and
what changes the context or the revision is the success of a switch that is underway. -/
theorem device_exclusive {context : AgentRuntimeContext} {actions : List DeviceAction} {s : AgentRun}
    (ran : run deviceStep (.bound context) actions = some s)
    (reported : Along deviceStep (fun s action _ => Reports s action) (.bound context) actions) :
    s.switches.countP SwitchCall.underway ≤ 1 ∧
    (∀ call ∈ s.switches, call.underway = true →
      (∀ operation ∈ s.operations, operation.running = true → operation.toolName ∈ controlTools) ∧
        false ∉ s.sessions) ∧
    s.revision = some (s.switches.countP SwitchCall.succeeded) ∧
    ((∀ call ∈ s.switches, call.underway = false) → ∀ toolName,
      (executionOperation s toolName).operations = s.operations ++
        [{ toolName, counted := toolName ∉ controlTools, state := .running }]) ∧
    ∀ action t, deviceStep s action = some t → Reports s action →
      t.context ≠ s.context ∨ t.revision ≠ s.revision →
        ∃ n readings, action = .advance n readings ∧
          (∃ call, s.switches[n]? = some call ∧ call.underway = true ∧ call.succeeded = false) ∧
            ∃ call, t.switches[n]? = some call ∧ call.succeeded = true := by
  have keep : ∀ s action t, (∃ device, Barrier s device) → deviceStep s action = some t →
      Reports s action → ∃ device, Barrier t device :=
    fun _ _ _ ⟨_, barrier⟩ steps reports => barrier.step reports steps
  obtain ⟨device, barrier⟩ := run_invariant_along keep ⟨_, barrier_bound context⟩ reported ran
  refine ⟨?_, fun call mem underway => barrier.excludes mem underway, ?_, barrier.accepts,
    fun action t steps reports changed => barrier.changes reports steps changed⟩
  · rw [barrier.single]
    exact Bool.toNat_le _
  · rw [AgentRun.revision, barrier.isDevice, Option.map_some, barrier.revision]

/-- A host with the directory `/a`, and `/b` when it is there. -/
def host (exists_ : Bool) : Surroundings where
  configWorkingPath := ""
  configGraphWorkingPath := ""
  readGraphWorkingPath := ""
  workspaceRoot := "/a"
  cwd := "/a"
  absolute path := path
  isDir path := path = "/a" || path = "/b" && exists_

def localContext : AgentRuntimeContext where
  nodeDirectory := "/a"
  workspaceRoot := "/a"
  workingPath := "/a"
  remoteEnabled := false
  remoteWorkerId := ""
  executionWorkspace := none
  graphWorkingPath := ""
  shell := ""

/-- What a switch to `/b` on the host reads. -/
def readings (exists_ : Bool) : SwitchReadings where
  around := host exists_
  catalog := .ok []
  answer := .ok {
    workingPath := "/b", platform := "linux", shell := "bash", timezone := "UTC"
    utcOffsetSeconds := 0 }
  cancelRequested := false

/-- A switch to `/b` goes on to its end. -/
def switchTo (call : Nat) (exists_ : Bool) : List DeviceAction :=
  [.advance call (readings true), .advance call (readings true), .advance call (readings true),
    .advance call (readings exists_), .advance call (readings exists_)]

/-- A switch is refused while a console session is unfinished, and the next one succeeds. -/
theorem device_exclusive_session : ∃ s, run deviceStep (.bound localContext)
      ([.begin_ "start_console_session", .startSession 0, .end_ 0, .switch "local" "/b" (some 0),
        .endSession 0, .switch "local" "/b" (some 0)] ++ switchTo 1 true) = some s ∧
      s.revision = some 1 ∧ s.revision = some (s.switches.countP SwitchCall.succeeded) := by
  have ends : (run deviceStep (.bound localContext)
      ([.begin_ "start_console_session", .startSession 0, .end_ 0, .switch "local" "/b" (some 0),
        .endSession 0, .switch "local" "/b" (some 0)] ++ switchTo 1 true)).any
      (fun s => s.revision = some 1) = true := by decide +kernel
  obtain ⟨s, ran, revision⟩ := (Option.any_eq_true _ _).mp ends
  exact ⟨s, ran, of_decide_eq_true revision,
    (device_exclusive ran (by decide +kernel)).2.2.1⟩

/-- The directory is gone when the switch reports it: the switch fails, and the context and the
revision are those of its success. -/
theorem device_reported : ∃ s, run deviceStep (.bound localContext)
      (.switch "local" "/b" (some 0) :: switchTo 0 false) = some s ∧
      s.switches = [{
        deviceId := "local", workingPath := "/b"
        phase := .done (.error "WorkingPath directory does not exist: /b") }] ∧
      s.context ≠ localContext ∧ s.revision ≠ some (s.switches.countP SwitchCall.succeeded) := by
  have ends : (run deviceStep (.bound localContext)
      (.switch "local" "/b" (some 0) :: switchTo 0 false)).any (fun s =>
        s.switches = [{
          deviceId := "local", workingPath := "/b"
          phase := .done (.error "WorkingPath directory does not exist: /b") }] ∧
        s.context ≠ localContext ∧
          s.revision ≠ some (s.switches.countP SwitchCall.succeeded)) = true := by decide +kernel
  obtain ⟨s, ran, holds⟩ := (Option.any_eq_true _ _).mp ends
  exact ⟨s, ran, of_decide_eq_true holds⟩

end AgentPark.Workspace
