import AgentPark.Groups.Structure
import AgentPark.Nodes.References

/-!
# The renaming of a node

`rename_node_instance` changes the directory of a node, its files, its memory, its runtime state, the
configuration of the graph, and two databases, and takes all of it back when a step fails.
-/

namespace AgentPark.Nodes

open Lib AgentPark.Runtime

/-- The steps of a rename, in their order. -/
inductive RenameStep where
  | reserve
  | requireIdle
  | unregister
  | renameCron
  | renameGroups
  | moveDirectory
  | rebindMemory
  | moveRuntime
  | readConfig
  | writeConfig
  | replaceRuntime
  | listArtifacts
  | renameArtifact (name : String)
  | readGraph
  | writeGraph
  | release
  | commitGroups
  | commitCron
deriving DecidableEq

/-- The exception that reaches the `except`, for the one that a step has raised. -/
def RenameStep.report : RenameStep → Failure → Failure
  | writeConfig, _ | replaceRuntime, _ => .other "RuntimeError" "failed to update node config"
  | writeGraph, failure => .http 500 ("failed to update graph config: " ++ failure.text)
  | _, failure => failure

/-- The steps behind the binding of the memory. -/
def RenameStep.afterRebind : RenameStep → Bool
  | reserve | requireIdle | unregister | renameCron | renameGroups | moveDirectory | rebindMemory =>
    false
  | _ => true

/-- The labels of `restore`. -/
inductive UndoStep where
  | artifact
  | memoryOwner
  | runtime
  | directory
  | config
  | graph
  | absentGraph
  | reservation
  | schedule
deriving DecidableEq

def UndoStep.label : UndoStep → String
  | artifact => "restore artifact"
  | memoryOwner => "restore memory owner"
  | runtime => "restore runtime"
  | directory => "restore directory"
  | config => "restore node config"
  | graph => "restore graph"
  | absentGraph => "restore absent graph"
  | reservation => "release reservation"
  | schedule => "restore schedule"

/-- What the rename finds around it. -/
structure Host where
  graphId : String
  caller : Groups.Caller := {}
  clock : Rat := 0
  repr : Json → String
  dumps : Json → String
  parsePortIndex : Json → Option Nat
  configPath : String → String
  activeWork : Bool := false
  fault : RenameStep → Option Failure := fun _ => none
  undoFault : UndoStep → Option Failure := fun _ => none

/-- The node and its new id, as `_sanitize_node_id` left them, and the new name. -/
structure RenameRequest where
  old : String
  new : String
  newName : Option String := none

/-- The local variables of `rename_node_instance`, the newest artifact first. -/
structure Progress where
  world : World
  reserved : Bool := false
  unregistered : Bool := false
  moved : Bool := false
  rebound : Bool := false
  runtimeMoved : Bool := false
  artifacts : List (String × String) := []

/-- One step.  A fault comes before the effect. -/
def Host.step {α : Type} (host : Host) (s : RenameStep)
    (f : Progress → Except Failure (α × Progress)) : Raising (RenameStep × Failure) Progress α :=
  Raising.attempt fun p =>
    match host.fault s with
    | some failure => .error (s, s.report failure)
    | none =>
      match f p with
      | .error failure => .error (s, s.report failure)
      | .ok next => .ok next

/-! ### The steps -/

section Steps

variable (host : Host) (r : RenameRequest)

/-- `_reserve_rename`. -/
def reserve (p : Progress) : Except Failure (Unit × Progress) :=
  let state := p.world.runtimeOf r.old
  if state.deleteRequested ∨ state.state = .working ∨ state.inflight.isSome then
    .error (.http 409 "node has active work and cannot be renamed")
  else
    .ok ((), { p with
      world := p.world.updateRuntime r.old fun state => { state with deleteRequested := true }
      reserved := true })

/-- `_require_no_active_execution`. -/
def requireNoActiveExecution (p : Progress) : Except Failure (Unit × Progress) :=
  if host.activeWork then .error (.http 409 "node has active work and cannot be moved")
  else .ok ((), p)

def unregister (p : Progress) : Except Failure (Unit × Progress) :=
  .ok ((), { p with unregistered := true })

/-- The transaction that `cron_node_rename` leaves open, if it has opened one. -/
def openCron (p : Progress) : Except Failure (Option Cron.CronDatabase × Progress) :=
  match p.world.cron with
  | none => .ok (none, p)
  | some db =>
    if r.old = r.new then .ok (none, p)
    else do
      let db ← cronNodeRename db r.old r.new
      return (some db, p)

/-- An exception of the group store. -/
def groupFailure : Groups.GroupError → Failure
  | .conflict text => .conflict text
  | .notFound text => .other "GroupNotFound" text
  | .permission text => .other "GroupPermissionError" text
  | .sync text | .value text => .other "ValueError" text
  | .key key => .other "KeyError" key
  | .integrity => .other "IntegrityError" ""

/-- The transaction that `node_rename` leaves open, if it has opened one. -/
def openGroups (p : Progress) : Except Failure (Option Groups.GroupStore × Progress) :=
  match p.world.groups with
  | none => .ok (none, p)
  | some db =>
    if r.old = r.new then .ok (none, p)
    else
      match Groups.nodeRename host.caller db r.old r.new with
      | .error e => .error (groupFailure e)
      | .ok db => .ok (some db, p)

def moveDirectory (p : Progress) : Except Failure (Unit × Progress) := do
  let world ← p.world.renameDirectory r.old r.new
  return ((), { p with world, moved := true })

def rebindMemory (p : Progress) : Except Failure (Unit × Progress) := do
  let world ← p.world.inDirectory r.new fun d => d.rebind host.clock host.graphId r.old r.new
  return ((), { p with world, rebound := true })

def moveRuntime (p : Progress) : Except Failure (Unit × Progress) :=
  .ok ((), { p with world := p.world.renameRuntime r.old r.new, runtimeMoved := true })

/-- `_migrate_config`. -/
def migrateConfig (path : String) (config : List (String × Json)) :
    Except Failure (List (String × Json)) :=
  match field config "schemaVersion" with
  | .null => .ok (dictSet config "schemaVersion" (.nat 1))
  | version =>
    if version = .nat 1 then .ok config
    else .error (.other "NodeConfigFormatError" ("unsupported node config schemaVersion: " ++ path))

/-- The part of a configuration that is kept in the file. -/
def persistentPart (config : List (String × Json)) : List (String × Json) :=
  config.filter fun entry => entry.1 ∉ Groups.runtimeStateFields

/-- `read_persistent_strict`. -/
def readPersistent (path : String) : Option Entry → Except Failure (List (String × Json))
  | some (.file text) =>
    match loads text.toList with
    | none => .error (.other "NodeConfigFormatError" ("node config contains invalid JSON: " ++ path))
    | some (.obj config) => migrateConfig path config
    | some _ =>
      .error (.other "NodeConfigFormatError" ("node config must be a JSON object: " ++ path))
  | _ => .error (.other "NodeConfigNotFoundError" ("node config does not exist: " ++ path))

def configName : String := "config.json"

/-- `read_strict`: the configuration in the file, and the runtime state that is merged into it. -/
def readConfig (p : Progress) :
    Except Failure ((List (String × Json) × RuntimeState) × Progress) := do
  let entry := (p.world.dirs r.new).bind fun d => d.get configName
  let config ← readPersistent (host.configPath r.new) entry
  return ((persistentPart config, p.world.runtimeOf r.new), p)

/-- The configuration under the new identity. -/
def renamedConfig (config : List (String × Json)) : List (String × Json) :=
  dictSet (dictSet (dictSet config "node_id" (.str r.new)) "graph_id" (.str host.graphId)) "name"
    (.str ((chosenName r.newName).getD r.new))

/-- The file part of `NodeConfigService.write`: an equal configuration is not written again. -/
def writeConfig (config : List (String × Json)) (p : Progress) :
    Except Failure (Unit × Progress) := do
  let entry := (p.world.dirs r.new).bind fun d => d.get configName
  let current ← readPersistent (host.configPath r.new) entry
  let next := Json.obj (renamedConfig host r config)
  if (Json.obj (persistentPart current)).pyEq next then return ((), p)
  else return ((), { p with world := p.world.writeFile r.new configName (host.dumps next) })

/-- The runtime part of `NodeConfigService.write`. -/
def replaceRuntime (state : RuntimeState) (p : Progress) : Except Failure (Unit × Progress) :=
  .ok ((), { p with world := p.world.replaceRuntime r.new state })

/-- `os.listdir(new_dir)`. -/
def listArtifacts (p : Progress) : Except Failure (List String × Progress) :=
  match p.world.dirs r.new with
  | none => .error (.other "FileNotFoundError" r.new)
  | some d => .ok (d.names, p)

/-- The new name of an artifact that is named after the node. -/
def artifactDestination (filename : String) : Option String :=
  if filename = r.old ++ ".md" then some (r.new ++ ".md")
  else if (r.old ++ "_").toList.isPrefixOf filename.toList then
    some (r.new ++ String.ofList (filename.toList.drop r.old.length))
  else none

def renameArtifact (filename : String) (p : Progress) : Except Failure (Unit × Progress) :=
  match artifactDestination r filename with
  | none => .ok ((), p)
  | some destination =>
    if ((p.world.dirs r.new).bind fun d => d.get destination).isSome then
      .error (.other "RuntimeError" ("renamed artifact already exists: " ++ destination))
    else do
      let world ← p.world.inDirectory r.new fun d => d.rename filename destination
      return ((), { p with world, artifacts := (filename, destination) :: p.artifacts })

/-- The text that `rename_node_references_in_graph` writes. -/
def readGraph (p : Progress) : Except Failure (Option String × Progress) := do
  let text ← renameNodeReferences host.repr host.dumps host.parsePortIndex host.graphId r.old r.new
    r.newName p.world.graph
  return (text, p)

def writeGraph (text : String) (p : Progress) : Except Failure (Unit × Progress) :=
  .ok ((), { p with world := { p.world with graph := some text } })

/-- The end of the reservation. -/
def release (p : Progress) : Except Failure (Unit × Progress) :=
  .ok ((), { p with
    world := p.world.updateRuntime r.new fun state => { state with deleteRequested := false }
    reserved := false })

def commitGroups (db : Groups.GroupStore) (p : Progress) : Except Failure (Unit × Progress) :=
  .ok ((), { p with world := { p.world with groups := some db } })

def commitCron (db : Cron.CronDatabase) (p : Progress) : Except Failure (Unit × Progress) :=
  .ok ((), { p with world := { p.world with cron := some db } })

/-- The moves to the new id. -/
def moveBody : Raising (RenameStep × Failure) Progress Unit := do
  host.step .moveDirectory (moveDirectory r)
  host.step .rebindMemory (rebindMemory host r)
  host.step .moveRuntime (moveRuntime r)

/-- The loop over the artifacts. -/
def artifactsBody : Raising (RenameStep × Failure) Progress Unit := do
  let names ← host.step .listArtifacts (listArtifacts r)
  names.forM fun name => host.step (.renameArtifact name) (renameArtifact r name)

/-- `node_config_service.read_strict` and `_write_json_dict`. -/
def configBody : Raising (RenameStep × Failure) Progress Unit := do
  let (config, state) ← host.step .readConfig (readConfig host r)
  host.step .writeConfig (writeConfig host r config)
  host.step .replaceRuntime (replaceRuntime r state)

/-- `rename_node_references_in_graph`. -/
def graphBody : Raising (RenameStep × Failure) Progress Unit := do
  let text ← host.step .readGraph (readGraph host r)
  match text with
  | none => pure ()
  | some text => host.step .writeGraph (writeGraph text)

/-- The end of the transaction of `node_rename`. -/
def closeGroups : Option Groups.GroupStore → Raising (RenameStep × Failure) Progress Unit
  | none => pure ()
  | some db => host.step .commitGroups (commitGroups db)

/-- The end of the transaction of `cron_node_rename`. -/
def closeCron : Option Cron.CronDatabase → Raising (RenameStep × Failure) Progress Unit
  | none => pure ()
  | some db => host.step .commitCron (commitCron db)

/-- A part of the `with` block that needs a new id. -/
def whenNew (body : Raising (RenameStep × Failure) Progress Unit) :
    Raising (RenameStep × Failure) Progress Unit :=
  if r.old ≠ r.new then body else pure ()

/-- The body of the `try`. -/
def renameBody : Raising (RenameStep × Failure) Progress Unit := do
  host.step .reserve (reserve r)
  host.step .requireIdle (requireNoActiveExecution host)
  host.step .unregister unregister
  let cron ← host.step .renameCron (openCron r)
  let groups ← host.step .renameGroups (openGroups host r)
  whenNew r (moveBody host r)
  configBody host r
  whenNew r (artifactsBody host r)
  graphBody host r
  host.step .release (release r)
  -- the contexts of a `with` end in the opposite order
  closeGroups host groups
  closeCron host cron

/-! ### The rollback -/

/-- An operation under `restore`. -/
def Host.undo (host : Host) (label : UndoStep) (f : World → Except Failure World) :
    UndoStep × (World → Except Failure World) :=
  (label, fun w =>
    match host.undoFault label with
    | some failure => .error failure
    | none => f w)

/-- Take the renaming of an artifact back. -/
def undoArtifact (artifact : String × String) (w : World) : Except Failure World :=
  w.inDirectory r.new fun d => d.rename artifact.2 artifact.1

/-- What the `except` does about the directory of the node and its runtime state. -/
def undoMoves (p : Progress) : List (UndoStep × (World → Except Failure World)) :=
  (if p.rebound then
    [host.undo .memoryOwner fun w =>
      w.inDirectory r.new fun d => d.rebind host.clock host.graphId r.new r.old]
  else []) ++
  (if p.runtimeMoved then [host.undo .runtime fun w => .ok (w.renameRuntime r.new r.old)] else []) ++
  (if p.moved then [host.undo .directory fun w => w.renameDirectory r.new r.old] else [])

/-- What the `except` does about the configurations. -/
def undoFiles (nodeBefore : String) (graphBefore : Option String) (p : Progress) :
    List (UndoStep × (World → Except Failure World)) :=
  host.undo .config (fun w => .ok (w.writeFile r.old configName nodeBefore)) ::
    match graphBefore with
    | some text => [host.undo .graph fun w => .ok { w with graph := some text }]
    | none =>
      if p.world.graph.isSome then [host.undo .absentGraph fun w => .ok { w with graph := none }]
      else []

/-- What the `except` does about the reservation and the schedule. -/
def undoMarks (p : Progress) : List (UndoStep × (World → Except Failure World)) :=
  (if p.reserved then
    [host.undo .reservation fun w =>
      .ok (w.updateRuntime r.old fun state => { state with deleteRequested := false })]
  else []) ++
  (if p.unregistered then [host.undo .schedule .ok] else [])

/-- The operations of the `except`, in their order. -/
def undoSteps (nodeBefore : String) (graphBefore : Option String) (p : Progress) :
    List (UndoStep × (World → Except Failure World)) :=
  p.artifacts.map (fun artifact => host.undo .artifact (undoArtifact r artifact)) ++
    (undoMoves host r p ++ (undoFiles host r nodeBefore graphBefore p ++ undoMarks host r p))

end Steps

/-! ### The operation -/

/-- What the route answers when the rename fails. -/
structure Refusal where
  step : Option RenameStep := none
  status : Nat
  detail : String
  rollbackErrors : List (UndoStep × Failure) := []

structure Renamed where
  oldNodeId : String
  nodeId : String
  graphId : String
  typeId : String
  configPath : String

/-- `_sanitize_node_id`. -/
def sanitizeNodeId (nodeId : String) : String :=
  let raw := pyStrip nodeId
  if raw = "" then "node"
  else
    let safe := pyStrip (String.ofList (raw.toList.map fun c =>
      if c ∈ ['<', '>', ':', '"', '/', '\\', '|', '?', '*'] then '_' else c))
    if safe = "" then "node" else safe

/-- `f"{label}: {type(failure).__name__}: {failure}"`. -/
def rollbackError (error : UndoStep × Failure) : String :=
  error.1.label ++ ": " ++ error.2.kind ++ ": " ++ error.2.text

def failureDetail (failure : Failure) (errors : List (UndoStep × Failure)) : String :=
  "failed to rename node: " ++ failure.text ++
    if errors = [] then ""
    else "; rollback errors: " ++ String.intercalate "; " (errors.map rollbackError)

/-- The `try` and the `except`, from the texts that were read before. -/
def renameOrUndo (host : Host) (r : RenameRequest) (nodeBefore : String)
    (graphBefore : Option String) (w : World) : Except Refusal Unit × World :=
  match renameBody host r { world := w } with
  | (.ok (), p) => (.ok (), p.world)
  | (.error (step, failure), p) =>
    if !p.reserved && !p.unregistered then
      (.error { step := some step, status := failure.status, detail := failure.text }, p.world)
    else
      let (errors, world) := undoAll (undoSteps host r nodeBefore graphBefore p) p.world
      (.error { step := some step, status := failure.status, detail := failureDetail failure errors,
                rollbackErrors := errors }, world)

/-- The request that a payload makes. -/
def readRequest (nodeId : String) (payload : Json) : Except Refusal RenameRequest :=
  match payload with
  | .obj fields =>
    match field fields "new_node_id" with
    | .str newNodeId =>
      if pyStrip newNodeId = "" then .error { status := 400, detail := "new_node_id is required" }
      else
        let request := { old := sanitizeNodeId nodeId, new := sanitizeNodeId newNodeId }
        match field fields "new_name" with
        | .null => .ok request
        | .str newName => .ok { request with newName := some newName }
        | _ => .error { status := 400, detail := "new_name must be string" }
    | _ => .error { status := 400, detail := "new_node_id is required" }
  | _ => .error { status := 400, detail := "payload must be object" }

/-- `require_memory_idle`. -/
def memoryIdle (now : Rat) (d : Directory) : Bool :=
  !(d.memory.any fun memory => memory.leased now)

/-- `rename_node_instance`. -/
def renameNodeInstance (host : Host) (w : World) (nodeId : String) (payload : Json) :
    Except Refusal Renamed × World :=
  match readRequest nodeId payload with
  | .error refusal => (.error refusal, w)
  | .ok r =>
    match (w.dirs r.old).bind fun d => (d.get configName).map fun entry => (d, entry) with
    | none => (.error { status := 404, detail := "node instance not found" }, w)
    | some (d, entry) =>
      if r.new ≠ r.old ∧ (w.dirs r.new).isSome then
        (.error { status := 409, detail := "target node id already exists" }, w)
      else
        match readPersistent (host.configPath r.old) (some entry), entry with
        | .ok config, .file nodeBefore =>
          if !memoryIdle host.clock d then
            (.error {
              status := 409
              detail := "node memory consolidation is running; move the node after it completes" },
              w)
          else
            let (result, world) := renameOrUndo host r nodeBefore w.graph w
            (result.map fun _ => {
              oldNodeId := r.old
              nodeId := r.new
              graphId := host.graphId
              typeId := pyStrip (Json.strOr host.repr "" (config.lookup "type_id"))
              configPath := host.configPath r.new }, world)
        | .error failure, _ => (.error { status := 500, detail := failure.text }, w)
        | _, .folder _ => (.error { status := 500, detail := "node config does not exist" }, w)

end AgentPark.Nodes
