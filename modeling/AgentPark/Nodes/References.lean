import AgentPark.Lib.JsonText
import AgentPark.Nodes.World

/-!
# The references to a node in the configuration of its graph

* `renameNodeItems`, `renameNodeNote` and `renameOutputRouteReferences` are the three parts of
  `rename_node_references_in_graph`, and `renameNodeReferences` is the function itself, up to the
  writing of the file.

`parsePortIndex` stands for `NodeRouteParser.parse_port_index`, which goes through a float; `repr`
is the text of a list or a dictionary, and `dumps` writes a file of JSON with its indentation.
-/

namespace AgentPark.Nodes

open Lib

variable (repr : Json → String) (dumps : Json → String) (parsePortIndex : Json → Option Nat)

def valueError (text : String) : Failure := .other "ValueError" text

/-- `graph_cfg.get(key)` on the entries of a dictionary, where `None` is no value. -/
def field (fields : List (String × Json)) (key : String) : Json :=
  (fields.lookup key).getD .null

/-! ### Notes -/

/-- `normalize_node_notes`. -/
def normalizeNodeNotes : Json → Except Failure (List (String × Json))
  | .null => .ok []
  | .obj fields =>
    fields.foldlM (fun normalized (rawNodeId, rawNote) =>
      let nodeId := pyStrip rawNodeId
      if nodeId = "" then
        .error (.http 500 "graph node_notes keys must be non-empty node ids")
      else
        match rawNote with
        | .str text =>
          if pyStrip text = "" then .ok normalized
          else .ok (dictSet normalized nodeId (.str (pyStrip text)))
        | _ => .error (.http 500 ("graph node_notes." ++ nodeId ++ " must be a string"))) []
  | _ => .error (.http 500 "graph node_notes must be an object")

/-- `_rename_node_note`, with whether it changed the graph. -/
def renameNodeNote (old new : String) (graph : List (String × Json)) :
    Except Failure (List (String × Json) × Bool) := do
  let notes ← normalizeNodeNotes (field graph "node_notes")
  match notes.lookup old with
  | none => return (graph, false)
  | some note =>
    let others := notes.filter fun entry => entry.1 ≠ old
    return (dictSet graph "node_notes" (.obj (dictSet others new note)), true)

/-! ### Routes -/

structure RouteTarget where
  nodeId : String
  inputIndex : Nat
deriving DecidableEq

structure OutputRoute where
  outputIndex : Nat
  targets : List RouteTarget
deriving DecidableEq

abbrev OutputRoutes := List (String × List OutputRoute)

def normalizeTarget (place : String) : Json → Except Failure RouteTarget
  | .obj target =>
    let nodeId := pyStrip (Json.strOr repr "" (target.lookup "node_id"))
    if nodeId = "" then .error (valueError (place ++ ".node_id is required"))
    else
      match parsePortIndex ((target.lookup "input_index").getD (.nat 0)) with
      | none => .error (valueError (place ++ ".input_index must be a non-negative integer"))
      | some inputIndex => .ok { nodeId, inputIndex }
  | _ => .error (valueError (place ++ " must be an object"))

/-- The targets of a route, which are distinct. -/
def normalizeTargets (place : String) (raw : Json) : Except Failure (List RouteTarget) :=
  match raw with
  | .null => .ok []
  | .arr items =>
    items.zipIdx.foldlM (fun targets (item, index) => do
      let target ← normalizeTarget repr parsePortIndex
        (place ++ ".targets[" ++ toString index ++ "]") item
      if target ∈ targets then
        .error (valueError (place ++ " contains duplicate target " ++ target.nodeId ++ ":" ++
          toString target.inputIndex))
      else .ok (targets ++ [target])) []
  | _ => .error (valueError (place ++ ".targets must be an array"))

/-- The routes of a source, which have distinct outputs. -/
def normalizeSource (sourceId : String) (items : List Json) : Except Failure (List OutputRoute) :=
  items.zipIdx.foldlM (fun routes (item, index) =>
    let place := "output_routes[" ++ sourceId ++ "][" ++ toString index ++ "]"
    match item with
    | .obj fields =>
      match parsePortIndex (field fields "output_index") with
      | none => .error (valueError (place ++ ".output_index must be a non-negative integer"))
      | some outputIndex =>
        if routes.any (fun route => route.outputIndex = outputIndex) then
          .error (valueError ("output_routes[" ++ sourceId ++
            "] contains duplicate output_index " ++ toString outputIndex))
        else do
          let targets ← normalizeTargets repr parsePortIndex place (field fields "targets")
          .ok (routes ++ [{ outputIndex, targets }])
    | _ => .error (valueError (place ++ " must be an object"))) []

/-- `normalize_output_routes`, without `valid_node_ids`. -/
def normalizeOutputRoutes : Json → Except Failure OutputRoutes
  | .null => .ok []
  | .obj fields =>
    fields.foldlM (fun normalized (rawSourceId, rawItems) =>
      let sourceId := pyStrip rawSourceId
      if sourceId = "" then .error (valueError "output_routes source node id is required")
      else
        match rawItems with
        | .arr items => do
          let routes ← normalizeSource repr parsePortIndex sourceId items
          .ok (if routes = [] then normalized else dictSet normalized sourceId routes)
        | _ => .error (valueError ("output_routes[" ++ sourceId ++ "] must be an array"))) []
  | _ => .error (valueError "graph output_routes must be an object")

def RouteTarget.json (target : RouteTarget) : Json :=
  .obj [("node_id", .str target.nodeId), ("input_index", .nat target.inputIndex)]

def OutputRoute.json (route : OutputRoute) : Json :=
  .obj [("output_index", .nat route.outputIndex), ("targets", .arr (route.targets.map RouteTarget.json))]

def routesJson (routes : OutputRoutes) : Json :=
  .obj (routes.map fun (sourceId, items) => (sourceId, .arr (items.map OutputRoute.json)))

/-- The routes with the target renamed. -/
def OutputRoute.rename (old new : String) (route : OutputRoute) : OutputRoute :=
  { route with targets := route.targets.map fun target =>
      { target with nodeId := if target.nodeId = old then new else target.nodeId } }

/-- A source or a target is the node. -/
def mentionsNode (routes : OutputRoutes) (old : String) : Bool :=
  routes.any fun (sourceId, items) =>
    sourceId = old || items.any fun route => route.targets.any fun target => target.nodeId = old

/-- `rename_output_route_node`: routes of sources that become one are joined. -/
def renameOutputRouteNode (routes : OutputRoutes) (old new : String) :
    Except Failure (OutputRoutes × Bool) :=
  if old = "" ∨ new = "" ∨ old = new then .ok (routes, false)
  else do
    let renamed := routes.foldl (fun renamed (sourceId, items) =>
      let nextSourceId := if sourceId = old then new else sourceId
      let existing := (renamed.lookup nextSourceId).getD []
      dictSet renamed nextSourceId (existing ++ items.map (OutputRoute.rename old new))) []
    let normalized ← normalizeOutputRoutes repr parsePortIndex (routesJson renamed)
    .ok (normalized, mentionsNode routes old)

/-- `_rename_output_route_references`. -/
def renameOutputRouteReferences (old new : String) (graph : List (String × Json)) :
    Except Failure (List (String × Json) × Bool) := do
  let routes ← normalizeOutputRoutes repr parsePortIndex (field graph "output_routes")
  let (nextRoutes, changed) ← renameOutputRouteNode repr parsePortIndex routes (pyStrip old)
    (pyStrip new)
  if changed then return (dictSet graph "output_routes" (routesJson nextRoutes), true)
  else return (graph, false)

/-! ### The graph -/

/-- `new_name_raw.strip()` when it names something. -/
def chosenName : Option String → Option String
  | some raw => if pyStrip raw = "" then none else some (pyStrip raw)
  | none => none

/-- `str(node_item.get("id") or "").strip() == old_node_id`. -/
def isNodeItem (old : String) : Json → Bool
  | .obj item => pyStrip (Json.strOr repr "" (item.lookup "id")) = old
  | _ => false

/-- A node item under its new id and name. -/
def renameNodeItem (new : String) (newName : Option String) : Json → Json
  | .obj item =>
    let item := dictSet item "id" (.str new)
    match chosenName newName with
    | some name => .obj (dictSet item "name" (.str name))
    | none => .obj item
  | value => value

/-- `_rename_node_items`. -/
def renameNodeItems (old new : String) (newName : Option String) (graph : List (String × Json)) :
    List (String × Json) × Bool :=
  match field graph "nodes" with
  | .arr items =>
    if items.any (isNodeItem repr old) then
      (dictSet graph "nodes" (.arr (items.map fun item =>
        if isNodeItem repr old item then renameNodeItem new newName item else item)), true)
    else (graph, false)
  | _ => (graph, false)

/-- `rename_node_references_in_graph`: the text the configuration is written with, if it has to
be written.  An absent configuration has nothing to rename. -/
def renameNodeReferences (graphId old new : String) (newName : Option String) :
    Option String → Except Failure (Option String)
  | none => .ok none
  | some text =>
    match loads text.toList with
    | none => .error (.http 500 "graph config contains invalid JSON")
    | some (.obj []) => .ok none
    | some (.obj graph) => do
      let (graph, itemsChanged) := renameNodeItems repr old new newName graph
      let (graph, noteChanged) ← renameNodeNote old new graph
      let (graph, routesChanged) ← renameOutputRouteReferences repr parsePortIndex old new graph
      let linked := field graph "links" ≠ .null
      let graph := graph.filter fun entry => entry.1 ≠ "links"
      if itemsChanged || noteChanged || routesChanged || linked then
        .ok (some (dumps (.obj (dictSet graph "id" (.str graphId)))))
      else .ok none
    | some _ => .error (.http 500 "graph config must be a JSON object")

end AgentPark.Nodes
