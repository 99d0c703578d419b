import AgentPark.Lib.Grouping
import AgentPark.Lib.Separators
import AgentPark.Nodes.Routes

/-!
# Links of a graph

The edges of a graph are stored as routes and shown as links.  A link has an id, by which it can be taken
away, and the id is a text made of the ids of the nodes and the numbers of the ports.
-/

namespace AgentPark.Nodes

open Lib

/-! ### The program -/

/-- `output_route_target_id` -/
def outputRouteTargetId (sourceId : String) (outputIndex : Nat) (targetNodeId : String) (inputIndex : Nat) :
    String :=
  "route-" ++ sourceId ++ "-" ++ toString outputIndex ++ "-" ++ targetNodeId ++ "-" ++ toString inputIndex

structure OutgoingLink where
  id : String
  toNodeId : String
  fromOutputIndex : Nat
  toInputIndex : Nat
deriving DecidableEq

def companionError (code text : String) : Failure := .other ("CompanionError " ++ code) text

section

variable (repr : Json → String) (parsePortIndex : Json → Option Nat)

def outgoingLink (sourceId : String) (outputIndex : Nat) (target : RouteTarget) : Except Failure OutgoingLink :=
  let invalid := valueError
    ("output_routes[" ++ sourceId ++ "][" ++ toString outputIndex ++ "] contains an invalid target")
  let targetNodeId := pyStrip target.nodeId
  match parsePortIndex (.nat target.inputIndex) with
  | none => .error invalid
  | some inputIndex =>
    if targetNodeId = "" then .error invalid
    else
      .ok {
        id := outputRouteTargetId sourceId outputIndex targetNodeId inputIndex
        toNodeId := targetNodeId
        fromOutputIndex := outputIndex
        toInputIndex := inputIndex }

/-- `output_routes_to_outgoing` -/
def outputRoutesToOutgoing (routes : OutputRoutes) : Except Failure (List (String × List OutgoingLink)) :=
  routes.foldlM (fun outgoing (sourceId, items) =>
    items.foldlM (fun outgoing route =>
      match parsePortIndex (.nat route.outputIndex) with
      | none => .error (valueError ("output_routes[" ++ sourceId ++ "] contains invalid output_index"))
      | some outputIndex =>
        route.targets.foldlM (fun outgoing target => do
          let link ← outgoingLink parsePortIndex sourceId outputIndex target
          .ok (appendTo outgoing sourceId link)) outgoing) outgoing) []

/-- `_port_index` -/
def portIndex (field : String) (value : Nat) : Except Failure Nat :=
  match parsePortIndex (.nat value) with
  | some index => .ok index
  | none => .error (companionError "invalid_request" (field ++ " must be a non-negative integer"))

def linkJson (id sourceId : String) (outputIndex : Nat) (targetNodeId : String) (inputIndex : Nat) : Json :=
  .obj [("id", .str id),
    ("from", .obj [("node", .str sourceId), ("index", .nat outputIndex)]),
    ("to", .obj [("node", .str targetNodeId), ("index", .nat inputIndex)])]

/-- `_read_links_from_graph`: the links of the routes of a graph. -/
def readLinksFromGraph (rawRoutes : Json) : Except Failure (List Json) :=
  match normalizeOutputRoutes repr parsePortIndex rawRoutes >>= outputRoutesToOutgoing parsePortIndex with
  | .error failure => .error (companionError "invalid_graph" failure.text)
  | .ok outgoing =>
    (flatPairs outgoing).mapM fun (sourceId, item) => do
      let outputIndex ← portIndex parsePortIndex "from_output_index" item.fromOutputIndex
      let inputIndex ← portIndex parsePortIndex "to_input_index" item.toInputIndex
      .ok (linkJson item.id sourceId outputIndex item.toNodeId inputIndex)

def linkEnds : Json → Except Failure ((String × Nat) × RouteTarget)
  | .obj link =>
    match field link "from", field link "to" with
    | .obj fromEndpoint, .obj toEndpoint =>
      let sourceId := pyStrip (Json.strOr repr "" (fromEndpoint.lookup "node"))
      let targetNodeId := pyStrip (Json.strOr repr "" (toEndpoint.lookup "node"))
      match parsePortIndex ((fromEndpoint.lookup "index").getD (.nat 0)),
          parsePortIndex ((toEndpoint.lookup "index").getD (.nat 0)) with
      | some outputIndex, some inputIndex =>
        if sourceId = "" ∨ targetNodeId = "" then
          .error (valueError "link endpoints must include node ids and non-negative indexes")
        else .ok ((sourceId, outputIndex), { nodeId := targetNodeId, inputIndex })
      | _, _ => .error (valueError "link endpoints must include node ids and non-negative indexes")
    | _, _ => .error (valueError "link endpoints must be objects")
  | _ => .error (valueError "link item must be an object")

/-- `endpoint_links_to_output_routes` -/
def endpointLinksToOutputRoutes (links : List Json) : Except Failure OutputRoutes := do
  let routesBySourceOutput ← links.foldlM (fun routesBySourceOutput link => do
    let ends ← linkEnds repr parsePortIndex link
    .ok (appendTo routesBySourceOutput ends.1 ends.2)) []
  let outputRoutes := routesBySourceOutput.foldl (fun outputRoutes (key, targets) =>
    appendTo outputRoutes key.1 { outputIndex := key.2, targets }) []
  normalizeOutputRoutes repr parsePortIndex (routesJson outputRoutes)

/-- The route without the targets at a node. -/
def OutputRoute.without (removedId : String) (route : OutputRoute) : OutputRoute :=
  { route with targets := route.targets.filter fun target => pyStrip target.nodeId ≠ removedId }

/-- `prune_output_routes_for_removed_node`, with whether it removed something. -/
def pruneOutputRoutesForRemovedNode (routes : OutputRoutes) (nodeId : String) :
    Except Failure (OutputRoutes × Bool) :=
  let removedId := pyStrip nodeId
  if removedId = "" then .ok (routes, false)
  else do
    let (nextRoutes, changed) := routes.foldl (fun (nextRoutes, changed) (sourceId, items) =>
      if sourceId = removedId then (nextRoutes, true)
      else
        let sourceRoutes := items.map (OutputRoute.without removedId)
        (if sourceRoutes = [] then nextRoutes else dictSet nextRoutes sourceId sourceRoutes,
          changed || items.any fun route =>
            (route.without removedId).targets.length ≠ route.targets.length)) ([], false)
    let normalized ← normalizeOutputRoutes repr parsePortIndex (routesJson nextRoutes)
    .ok (normalized, changed)

/-- `rename_output_route_node`, on ids as they come. -/
def renameOutputRouteNodeRaw (routes : OutputRoutes) (oldNodeId newNodeId : String) :
    Except Failure (OutputRoutes × Bool) :=
  renameOutputRouteNode repr parsePortIndex routes (pyStrip oldNodeId) (pyStrip newNodeId)

end

/-! ### Edges in the order of the table -/

/-- The edges of a table, in its order. -/
def edgeList (routes : OutputRoutes) : List RouteEdge :=
  (flatRoutes routes).flatMap fun (source, route) =>
    route.targets.map fun target => { source, outputIndex := route.outputIndex, target }

def RouteEdge.linkId (edge : RouteEdge) : String :=
  outputRouteTargetId edge.source edge.outputIndex edge.target.nodeId edge.target.inputIndex

def RouteEdge.outgoing (edge : RouteEdge) : OutgoingLink where
  id := edge.linkId
  toNodeId := edge.target.nodeId
  fromOutputIndex := edge.outputIndex
  toInputIndex := edge.target.inputIndex

def RouteEdge.link (edge : RouteEdge) : Json :=
  linkJson edge.linkId edge.source edge.outputIndex edge.target.nodeId edge.target.inputIndex

/-- The targets of an output, in their order. -/
def outputTargets (routes : OutputRoutes) (source : String) (outputIndex : Nat) : List RouteTarget :=
  (flatRoutes routes).flatMap fun entry =>
    if entry.1 = source ∧ entry.2.outputIndex = outputIndex then entry.2.targets else []

/-- The table without the outputs that have no targets. -/
def usedRoutes (routes : OutputRoutes) : OutputRoutes :=
  (routes.map fun entry => (entry.1, entry.2.filter fun route => route.targets ≠ [])).filter fun entry =>
    entry.2 ≠ []

variable {parsePortIndex : Json → Option Nat} {routes : OutputRoutes} {edge other : RouteEdge}

theorem mem_edgeList : edge ∈ edgeList routes ↔ edge ∈ routeEdges routes := by
  rw [edgeList, mem_routeEdges, List.mem_flatMap]
  constructor
  · intro ⟨entry, mem, isEdge⟩
    obtain ⟨target, inTargets, rfl⟩ := List.mem_map.mp isEdge
    exact ⟨entry, mem, rfl, rfl, inTargets⟩
  · intro ⟨entry, mem, isSource, isOutput, inTargets⟩
    refine ⟨entry, mem, List.mem_map.mpr ⟨edge.target, inTargets, ?_⟩⟩
    rw [isSource, isOutput]

/-- What an edge of a normal table is made of. -/
structure NormalEdge (parsePortIndex : Json → Option Nat) (edge : RouteEdge) : Prop where
  trimmed : pyStrip edge.source = edge.source
  named : edge.source ≠ ""
  index : parsePortIndex (.nat edge.outputIndex) = some edge.outputIndex
  target : NormalTarget parsePortIndex edge.target

theorem NormalRoutes.normalEdge (normal : NormalRoutes parsePortIndex routes) (mem : edge ∈ edgeList routes) :
    NormalEdge parsePortIndex edge := by
  rw [mem_edgeList] at mem
  obtain ⟨items, inRoutes, route, inItems, isOutput, inTargets⟩ := mem
  have isNormal := (normal.sources (edge.source, items) inRoutes).routes route inItems
  have index := isNormal.index
  rw [isOutput] at index
  exact ⟨normal.trimmed (edge.source, items) inRoutes, normal.named (edge.source, items) inRoutes, index,
    isNormal.targets edge.target inTargets⟩

/-! ### From routes to links -/

theorem outgoingLink_of_normal {target : RouteTarget} (normal : NormalTarget parsePortIndex target)
    (source : String) (outputIndex : Nat) :
    outgoingLink parsePortIndex source outputIndex target =
      .ok (RouteEdge.outgoing { source, outputIndex, target }) := by
  rw [outgoingLink]
  simp only [normal.index, normal.trimmed, if_neg normal.named]
  rfl

/-- The links of the sources, in the order of the table. -/
def outgoingTable (routes : OutputRoutes) : List (String × List OutgoingLink) :=
  routes.map fun entry => (entry.1, entry.2.flatMap fun route =>
    route.targets.map fun target =>
      RouteEdge.outgoing { source := entry.1, outputIndex := route.outputIndex, target })

theorem flatPairs_outgoingTable (routes : OutputRoutes) :
    flatPairs (outgoingTable routes) = (edgeList routes).map fun edge => (edge.source, edge.outgoing) := by
  rw [outgoingTable, flatPairs, List.flatMap_map, edgeList, flatRoutes, List.map_flatMap, List.flatMap_assoc]
  refine List.flatMap_congr fun entry _ => ?_
  rw [List.map_flatMap, List.flatMap_map]
  refine List.flatMap_congr fun route _ => ?_
  rw [List.map_map, List.map_map]
  rfl

theorem outputRoutesToOutgoing_eq (normal : NormalRoutes parsePortIndex routes) :
    outputRoutesToOutgoing parsePortIndex routes = .ok (groupPairs (flatPairs (outgoingTable routes))) := by
  have turn : ∀ outgoing, ∀ entry ∈ routes,
      entry.2.foldlM (fun outgoing route =>
        match parsePortIndex (.nat route.outputIndex) with
        | none => .error (valueError ("output_routes[" ++ entry.1 ++ "] contains invalid output_index"))
        | some outputIndex =>
          route.targets.foldlM (fun outgoing target => do
            let link ← outgoingLink parsePortIndex entry.1 outputIndex target
            .ok (appendTo outgoing entry.1 link)) outgoing) outgoing =
        (.ok (entry.2.foldl (fun outgoing route => route.targets.foldl (fun outgoing target =>
          appendTo outgoing entry.1 (RouteEdge.outgoing ⟨entry.1, route.outputIndex, target⟩)) outgoing)
            outgoing) : Except Failure _) := by
    intro outgoing entry mem
    have source := normal.sources entry mem
    refine foldlM_of_ok (fun outgoing route inItems => ?_) outgoing
    have isNormal := source.routes route inItems
    simp only [isNormal.index]
    refine foldlM_of_ok (fun outgoing target inTargets => ?_) outgoing
    rw [outgoingLink_of_normal (isNormal.targets target inTargets)]
    rfl
  rw [outputRoutesToOutgoing, foldlM_of_ok turn, flatPairs_outgoingTable, groupPairs, List.foldl_map, edgeList,
    List.foldl_flatMap, flatRoutes, List.foldl_flatMap]
  simp only [List.foldl_map]

/-- The links of a table: outputs without targets are lost and nothing else. -/
theorem readLinksFromGraph_eq {repr : Json → String} {raw : Json} (stable : StableIndex parsePortIndex)
    (read : normalizeOutputRoutes repr parsePortIndex raw = .ok routes) :
    readLinksFromGraph repr parsePortIndex raw = .ok ((edgeList routes).map RouteEdge.link) := by
  have normal := normalizeOutputRoutes_normal stable read
  have keys : ((outgoingTable routes).map Prod.fst).Nodup := by
    rw [outgoingTable, List.map_map]
    exact normal.nodup
  have isOutgoing : normalizeOutputRoutes repr parsePortIndex raw >>= outputRoutesToOutgoing parsePortIndex =
      .ok (groupPairs (flatPairs (outgoingTable routes))) :=
    bind_eq_ok.mpr ⟨routes, read, outputRoutesToOutgoing_eq normal⟩
  have pairs : flatPairs (groupPairs (flatPairs (outgoingTable routes))) =
      (edgeList routes).map fun edge => (edge.source, edge.outgoing) := by
    rw [groupPairs_flatPairs keys, flatPairs_filter, flatPairs_outgoingTable]
  rw [readLinksFromGraph, isOutgoing]
  simp only
  rw [pairs, List.mapM_map]
  refine mapM_of_ok fun edge mem => ?_
  have isNormal := normal.normalEdge mem
  simp only [Function.comp_apply, portIndex, RouteEdge.outgoing, isNormal.index, isNormal.target.index]
  rfl

/-! ### From links to routes -/

section

variable {repr : Json → String}

theorem linkEnds_link (normal : NormalEdge parsePortIndex edge) :
    linkEnds repr parsePortIndex edge.link = .ok ((edge.source, edge.outputIndex), edge.target) := by
  have text : ∀ id : String, id ≠ "" → Json.strOr repr "" (some (.str id)) = id := by
    intro id named
    simp [Json.strOr, Json.truthy, Json.pyStr, named]
  have fromEndpoint : field [("id", .str edge.linkId),
      ("from", .obj [("node", .str edge.source), ("index", .nat edge.outputIndex)]),
      ("to", .obj [("node", .str edge.target.nodeId), ("index", .nat edge.target.inputIndex)])] "from" =
        .obj [("node", .str edge.source), ("index", .nat edge.outputIndex)] := rfl
  have toEndpoint : field [("id", .str edge.linkId),
      ("from", .obj [("node", .str edge.source), ("index", .nat edge.outputIndex)]),
      ("to", .obj [("node", .str edge.target.nodeId), ("index", .nat edge.target.inputIndex)])] "to" =
        .obj [("node", .str edge.target.nodeId), ("index", .nat edge.target.inputIndex)] := rfl
  have node : ∀ (id : String) (index : Nat),
      [("node", Json.str id), ("index", Json.nat index)].lookup "node" = some (.str id) := fun _ _ => rfl
  have port : ∀ (id : String) (index : Nat),
      [("node", Json.str id), ("index", Json.nat index)].lookup "index" = some (.nat index) := fun _ _ => rfl
  rw [RouteEdge.link, linkJson, linkEnds]
  simp only [fromEndpoint, toEndpoint, node, port, Option.getD_some, normal.index, normal.target.index,
    text _ normal.named, text _ normal.target.named, normal.trimmed, normal.target.trimmed]
  rw [if_neg (not_or.mpr ⟨normal.named, normal.target.named⟩)]

/-- The targets of the outputs. -/
def outputsTable (routes : OutputRoutes) : List ((String × Nat) × List RouteTarget) :=
  (flatRoutes routes).map fun entry => ((entry.1, entry.2.outputIndex), entry.2.targets)

theorem flatPairs_outputsTable (routes : OutputRoutes) :
    flatPairs (outputsTable routes) =
      (edgeList routes).map fun edge => ((edge.source, edge.outputIndex), edge.target) := by
  rw [outputsTable, flatPairs, List.flatMap_map, edgeList, List.map_flatMap]
  refine List.flatMap_congr fun entry _ => ?_
  rw [List.map_map]
  rfl

theorem outputsTable_filter (routes : OutputRoutes) :
    ((outputsTable routes).filter fun entry => entry.2 ≠ []).map
        (fun entry => (entry.1.1, (⟨entry.1.2, entry.2⟩ : OutputRoute))) =
      flatPairs (routes.map fun entry => (entry.1, entry.2.filter fun route => route.targets ≠ [])) := by
  rw [outputsTable, List.filter_map, List.map_map, flatRoutes, List.filter_flatMap, List.map_flatMap, flatPairs,
    List.flatMap_map]
  refine List.flatMap_congr fun entry _ => ?_
  rw [List.filter_map, List.map_map]
  rfl

theorem NormalRoutes.used_sublist (routes : OutputRoutes) :
    ((usedRoutes routes).map Prod.fst).Sublist (routes.map Prod.fst) := by
  have keys : routes.map Prod.fst = (routes.map fun entry =>
      (entry.1, entry.2.filter fun route => route.targets ≠ [])).map Prod.fst := by
    rw [List.map_map]
    rfl
  rw [keys]
  exact List.filter_sublist.map _

theorem NormalRoutes.usedRoutes (normal : NormalRoutes parsePortIndex routes) :
    NormalRoutes parsePortIndex (usedRoutes routes) := by
  have origin : ∀ entry ∈ Nodes.usedRoutes routes, entry.2 ≠ [] ∧ ∃ items, (entry.1, items) ∈ routes ∧
      entry.2.Sublist items := by
    intro entry mem
    obtain ⟨isEntry, used⟩ := List.mem_filter.mp mem
    obtain ⟨old, inRoutes, rfl⟩ := List.mem_map.mp isEntry
    exact ⟨of_decide_eq_true used, old.2, inRoutes, List.filter_sublist⟩
  refine ⟨normal.nodup.sublist (used_sublist routes), ?_, ?_, fun entry mem => (origin entry mem).1, ?_⟩
  · intro entry mem
    obtain ⟨-, items, inRoutes, -⟩ := origin entry mem
    exact normal.trimmed (entry.1, items) inRoutes
  · intro entry mem
    obtain ⟨-, items, inRoutes, -⟩ := origin entry mem
    exact normal.named (entry.1, items) inRoutes
  · intro entry mem
    obtain ⟨-, items, inRoutes, part⟩ := origin entry mem
    have source := normal.sources (entry.1, items) inRoutes
    exact ⟨source.nodup.sublist (part.map _), fun route inItems => source.routes route (part.subset inItems)⟩

/-- The table of such links. -/
theorem endpointLinksToOutputRoutes_eq (normal : NormalRoutes parsePortIndex routes) :
    endpointLinksToOutputRoutes repr parsePortIndex ((edgeList routes).map RouteEdge.link) =
      .ok (usedRoutes routes) := by
  have turns : ((edgeList routes).map RouteEdge.link).foldlM (fun routesBySourceOutput link => do
      let ends ← linkEnds repr parsePortIndex link
      .ok (appendTo routesBySourceOutput ends.1 ends.2)) [] =
        (.ok (groupPairs (flatPairs (outputsTable routes))) : Except Failure _) := by
    rw [List.foldlM_map, flatPairs_outputsTable, groupPairs, List.foldl_map]
    refine foldlM_of_ok (fun table edge mem => ?_) []
    rw [linkEnds_link (normal.normalEdge mem)]
    rfl
  have keys : ((outputsTable routes).map Prod.fst).Nodup := by
    rw [outputsTable, List.map_map]
    exact flatRoutes_nodup normal
  have sources : ((routes.map fun entry =>
      (entry.1, entry.2.filter fun route => route.targets ≠ [])).map Prod.fst).Nodup := by
    rw [List.map_map]
    exact normal.nodup
  have grouped : ((outputsTable routes).filter fun entry => entry.2 ≠ []).foldl (fun outputRoutes (key, targets) =>
      appendTo outputRoutes key.1 (⟨key.2, targets⟩ : OutputRoute)) [] = usedRoutes routes := by
    have pairs := congrArg groupPairs (outputsTable_filter routes)
    rw [groupPairs_flatPairs sources, groupPairs, List.foldl_map] at pairs
    exact pairs
  rw [groupPairs_flatPairs keys] at turns
  refine bind_eq_ok.mpr ⟨_, turns, ?_⟩
  simp only
  rw [grouped]
  exact normalizeOutputRoutes_json normal.usedRoutes

theorem flatRoutes_usedRoutes (routes : OutputRoutes) :
    flatRoutes (usedRoutes routes) = (flatRoutes routes).filter fun entry => entry.2.targets ≠ [] := by
  have used := flatPairs_filter (routes.map fun entry => (entry.1, entry.2.filter fun route => route.targets ≠ []))
  have filtered : flatPairs (routes.map fun entry =>
      (entry.1, entry.2.filter fun route => route.targets ≠ [])) =
        (flatRoutes routes).filter fun entry => entry.2.targets ≠ [] := by
    rw [flatPairs, List.flatMap_map, flatRoutes, List.filter_flatMap]
    refine List.flatMap_congr fun entry _ => ?_
    rw [List.filter_map]
    rfl
  exact used.trans filtered

theorem routeEdges_usedRoutes (routes : OutputRoutes) : routeEdges (usedRoutes routes) = routeEdges routes := by
  ext edge
  rw [mem_routeEdges, mem_routeEdges, flatRoutes_usedRoutes]
  constructor
  · intro ⟨entry, mem, isEdge⟩
    exact ⟨entry, List.mem_of_mem_filter mem, isEdge⟩
  · intro ⟨entry, mem, isEdge⟩
    refine ⟨entry, List.mem_filter.mpr ⟨mem, decide_eq_true ?_⟩, isEdge⟩
    exact List.ne_nil_of_mem isEdge.2.2

theorem outputTargets_usedRoutes (routes : OutputRoutes) (source : String) (outputIndex : Nat) :
    outputTargets (usedRoutes routes) source outputIndex = outputTargets routes source outputIndex := by
  rw [outputTargets, outputTargets, flatRoutes_usedRoutes]
  induction flatRoutes routes with
  | nil => rfl
  | cons entry entries ih =>
    rw [List.filter_cons]
    split_ifs with used
    · rw [List.flatMap_cons, List.flatMap_cons, ih]
    · have empty : entry.2.targets = [] := by simpa using used
      rw [ih, List.flatMap_cons, empty, ite_self, List.nil_append]

end

/-! ### The ids of links -/

/-- The end of the source of one edge is read as the output of the other, whose target takes in the output and
the target of the first: the ids of both are written with the same characters. -/
def RouteEdge.Overlaps (edge other : RouteEdge) : Prop :=
  edge.target.inputIndex = other.target.inputIndex ∧ ∃ middle : String,
    other.source = edge.source ++ "-" ++ toString edge.outputIndex ++ middle ∧
    "-" ++ edge.target.nodeId = middle ++ "-" ++ toString other.outputIndex ++ "-" ++ other.target.nodeId

theorem not_mem_repr (n : Nat) : '-' ∉ n.repr.toList := by
  intro mem
  rw [Nat.toList_repr] at mem
  have digit := Nat.isDigit_of_mem_toDigits (by omega) (by omega) mem
  cases digit

theorem repr_toList_inj {n m : Nat} (same : n.repr.toList = m.repr.toList) : n = m := by
  rw [Nat.toList_repr, Nat.toList_repr] at same
  have value := congrArg (fun digits => Nat.ofDigitChars 10 digits 0) same
  simpa only [Nat.ofDigitChars_ten_toDigits] using value

/-- The characters between the first word and the input. -/
def RouteEdge.idChars (edge : RouteEdge) : List Char :=
  edge.source.toList ++ '-' :: (edge.outputIndex.repr.toList ++ '-' :: edge.target.nodeId.toList)

theorem linkId_toList (edge : RouteEdge) :
    edge.linkId.toList =
      ("route-".toList ++ edge.idChars) ++ '-' :: edge.target.inputIndex.repr.toList := by
  have dash : "-".toList = ['-'] := rfl
  have digits : ∀ n : Nat, toString n = n.repr := fun _ => rfl
  rw [RouteEdge.linkId, outputRouteTargetId, RouteEdge.idChars]
  simp only [String.toList_append, dash, digits, List.append_assoc, List.cons_append, List.nil_append]

theorem overlaps_iff : edge.Overlaps other ↔
    edge.target.inputIndex = other.target.inputIndex ∧ ∃ m : List Char,
      other.source.toList = edge.source.toList ++ '-' :: (edge.outputIndex.repr.toList ++ m) ∧
      '-' :: edge.target.nodeId.toList =
        m ++ '-' :: (other.outputIndex.repr.toList ++ '-' :: other.target.nodeId.toList) := by
  have dash : "-".toList = ['-'] := rfl
  have digits : ∀ n : Nat, toString n = n.repr := fun _ => rfl
  rw [RouteEdge.Overlaps]
  refine and_congr_right fun _ => ⟨fun ⟨middle, isSource, isTarget⟩ => ⟨middle.toList, ?_, ?_⟩,
    fun ⟨m, isSource, isTarget⟩ => ⟨String.ofList m, ?_, ?_⟩⟩
  · rw [isSource]
    simp only [String.toList_append, dash, digits, List.append_assoc, List.cons_append, List.nil_append]
  · have chars := congrArg String.toList isTarget
    simpa only [String.toList_append, dash, digits, List.append_assoc, List.cons_append, List.nil_append]
      using chars
  · apply String.toList_injective
    rw [isSource]
    simp only [String.toList_append, String.toList_ofList, dash, digits, List.append_assoc, List.cons_append,
      List.nil_append]
  · apply String.toList_injective
    simpa only [String.toList_append, String.toList_ofList, dash, digits, List.append_assoc, List.cons_append,
      List.nil_append] using isTarget

/-- Which edges have the same id. -/
theorem linkId_eq_iff : edge.linkId = other.linkId ↔ edge = other ∨ edge.Overlaps other ∨ other.Overlaps edge := by
  have asChars : edge.linkId = other.linkId ↔
      edge.target.inputIndex = other.target.inputIndex ∧ edge.idChars = other.idChars := by
    rw [← String.toList_inj, linkId_toList, linkId_toList]
    constructor
    · intro same
      obtain ⟨front, input⟩ := append_sep_inj (not_mem_repr _) (not_mem_repr _) same
      exact ⟨repr_toList_inj input, List.append_cancel_left front⟩
    · intro ⟨input, front⟩
      rw [input, front]
  rw [asChars, RouteEdge.idChars, RouteEdge.idChars, separated_eq_iff (not_mem_repr _) (not_mem_repr _),
    overlaps_iff, overlaps_iff]
  constructor
  · rintro ⟨input, ⟨source, output, target⟩ | laps | laps⟩
    · refine .inl ?_
      obtain ⟨source', output', ⟨target', input'⟩⟩ := edge
      obtain ⟨source'', output'', ⟨target'', input''⟩⟩ := other
      simp only at input source output target
      rw [String.toList_injective source, repr_toList_inj output, String.toList_injective target, input]
    · exact .inr (.inl ⟨input, laps⟩)
    · exact .inr (.inr ⟨input.symm, laps⟩)
  · rintro (rfl | ⟨input, laps⟩ | ⟨input, laps⟩)
    · exact ⟨rfl, .inl ⟨rfl, rfl, rfl⟩⟩
    · exact ⟨input, .inr (.inl laps)⟩
    · exact ⟨input.symm, .inr (.inr laps)⟩

theorem RouteEdge.Overlaps.ne (laps : edge.Overlaps other) : edge ≠ other := by
  intro same
  rw [same, overlaps_iff] at laps
  obtain ⟨-, m, isSource, -⟩ := laps
  have lengths := congrArg List.length isSource
  simp only [List.length_append, List.length_cons] at lengths
  omega

/-! ### A node is taken out -/

section

variable {repr : Json → String} {removedId : String}

/-- The table without a node. -/
def prunedRoutes (removedId : String) (routes : OutputRoutes) : OutputRoutes :=
  (routes.filter fun entry => entry.1 ≠ removedId).map fun entry =>
    (entry.1, entry.2.map (OutputRoute.without removedId))

/-- The node is a source, or a target is at it. -/
def pruneChanges (removedId : String) (routes : OutputRoutes) : Bool :=
  routes.any fun entry => entry.1 = removedId || entry.2.any fun route =>
    (route.without removedId).targets.length ≠ route.targets.length

theorem pruneChanges_cons (removedId : String) (entry : String × List OutputRoute) (routes : OutputRoutes) :
    pruneChanges removedId (entry :: routes) =
      ((entry.1 = removedId || entry.2.any fun route =>
        (route.without removedId).targets.length ≠ route.targets.length) || pruneChanges removedId routes) := rfl

theorem foldl_prune {done : OutputRoutes} (nodup : ((done ++ routes).map Prod.fst).Nodup)
    (used : ∀ entry ∈ routes, entry.2 ≠ []) (changed : Bool) :
    routes.foldl (fun (nextRoutes, changed) (sourceId, items) =>
      if sourceId = removedId then (nextRoutes, true)
      else
        let sourceRoutes := items.map (OutputRoute.without removedId)
        (if sourceRoutes = [] then nextRoutes else dictSet nextRoutes sourceId sourceRoutes,
          changed || items.any fun route =>
            (route.without removedId).targets.length ≠ route.targets.length)) (done, changed) =
      (done ++ prunedRoutes removedId routes, changed || pruneChanges removedId routes) := by
  induction routes generalizing done changed with
  | nil => simp [prunedRoutes, pruneChanges]
  | cons entry routes ih =>
    obtain ⟨usedHere, usedLater⟩ := List.forall_mem_cons.mp used
    have fresh : entry.1 ∉ done.map Prod.fst := by
      intro old
      rw [List.map_append, List.map_cons] at nodup
      exact (List.nodup_append.mp nodup).2.2 _ old _ List.mem_cons_self rfl
    rw [List.foldl_cons]
    by_cases removed : entry.1 = removedId
    · have rest : ((done ++ routes).map Prod.fst).Nodup :=
        nodup.sublist (((List.sublist_cons_self entry routes).append_left done).map _)
      simp only [if_pos removed]
      rw [ih rest usedLater, prunedRoutes, prunedRoutes, List.filter_cons_of_neg (by simpa using removed),
        pruneChanges_cons, decide_eq_true removed, Bool.true_or, Bool.true_or, Bool.true_or, Bool.or_true]
    · have kept : entry.2.map (OutputRoute.without removedId) ≠ [] := by simpa using usedHere
      have rest : ((done ++ [(entry.1, entry.2.map (OutputRoute.without removedId))] ++ routes).map
          Prod.fst).Nodup := by
        rw [List.append_assoc, List.map_append, List.singleton_append, List.map_cons]
        rw [List.map_append, List.map_cons] at nodup
        exact nodup
      simp only [if_neg removed, if_neg kept]
      rw [dictSet, if_neg fresh, ih rest usedLater, prunedRoutes, prunedRoutes,
        List.filter_cons_of_pos (by simpa using removed), List.map_cons, List.append_assoc,
        List.singleton_append, pruneChanges_cons, decide_eq_false removed, Bool.false_or, Bool.or_assoc]

theorem OutputRoute.without_sublist (removedId : String) (route : OutputRoute) :
    (route.without removedId).targets.Sublist route.targets :=
  List.filter_sublist

theorem NormalRoute.without {route : OutputRoute} (normal : NormalRoute parsePortIndex route)
    (removedId : String) : NormalRoute parsePortIndex (route.without removedId) :=
  ⟨normal.index, normal.nodup.sublist (route.without_sublist removedId),
    fun target mem => normal.targets target ((route.without_sublist removedId).subset mem)⟩

theorem NormalRoutes.map (normal : NormalRoutes parsePortIndex routes) {part : OutputRoutes}
    (isPart : part.Sublist routes) {f : OutputRoute → OutputRoute}
    (output : ∀ route, (f route).outputIndex = route.outputIndex)
    (keeps : ∀ entry ∈ routes, ∀ route ∈ entry.2, NormalRoute parsePortIndex (f route)) :
    NormalRoutes parsePortIndex (part.map fun entry => (entry.1, entry.2.map f)) := by
  refine ⟨?_, ?_, ?_, ?_, ?_⟩
  · rw [List.map_map]
    exact normal.nodup.sublist (isPart.map _)
  all_goals refine List.forall_mem_map.mpr fun entry mem => ?_
  · exact normal.trimmed entry (isPart.subset mem)
  · exact normal.named entry (isPart.subset mem)
  · simpa using normal.used entry (isPart.subset mem)
  · have source := normal.sources entry (isPart.subset mem)
    constructor
    · have outputs : (entry.2.map f).map OutputRoute.outputIndex = entry.2.map OutputRoute.outputIndex := by
        rw [List.map_map]
        exact List.map_congr_left fun route _ => output route
      rw [outputs]
      exact source.nodup
    · exact List.forall_mem_map.mpr fun route inItems => keeps entry (isPart.subset mem) route inItems

theorem NormalRoutes.prunedRoutes (normal : NormalRoutes parsePortIndex routes) (removedId : String) :
    NormalRoutes parsePortIndex (prunedRoutes removedId routes) :=
  normal.map List.filter_sublist (fun _ => rfl) fun entry mem route inItems =>
    ((normal.sources entry mem).routes route inItems).without removedId

theorem pruneOutputRoutesForRemovedNode_eq (normal : NormalRoutes parsePortIndex routes) {nodeId : String}
    (named : pyStrip nodeId ≠ "") :
    pruneOutputRoutesForRemovedNode repr parsePortIndex routes nodeId =
      .ok (prunedRoutes (pyStrip nodeId) routes, pruneChanges (pyStrip nodeId) routes) := by
  have start : (([] ++ routes).map Prod.fst).Nodup := normal.nodup
  rw [pruneOutputRoutesForRemovedNode]
  simp only [if_neg named]
  rw [foldl_prune start normal.used]
  simp only [List.nil_append, Bool.false_or]
  rw [normalizeOutputRoutes_json (normal.prunedRoutes _)]
  rfl

theorem mem_routeEdges_prunedRoutes (normal : NormalRoutes parsePortIndex routes) :
    edge ∈ routeEdges (prunedRoutes removedId routes) ↔
      edge ∈ routeEdges routes ∧ ¬ edge.Touches [removedId] := by
  have trimmed : ∀ {items route}, (edge.source, items) ∈ routes → route ∈ items → edge.target ∈ route.targets →
      pyStrip edge.target.nodeId = edge.target.nodeId := fun {items route} inRoutes inItems inTargets =>
    (((normal.sources (edge.source, items) inRoutes).routes route inItems).targets edge.target inTargets).trimmed
  have touches : edge.Touches [removedId] ↔ edge.source = removedId ∨ edge.target.nodeId = removedId := by
    rw [RouteEdge.Touches, List.mem_singleton, List.mem_singleton]
  rw [touches, not_or]
  constructor
  · intro ⟨items, mem, route, inItems, isOutput, inTargets⟩
    obtain ⟨entry, inRoutes, isEntry⟩ := List.mem_map.mp mem
    obtain ⟨inRoutes, other⟩ := List.mem_filter.mp inRoutes
    obtain ⟨isSource, isItems⟩ := Prod.mk.inj isEntry
    rw [← isItems] at inItems
    obtain ⟨old, inOld, rfl⟩ := List.mem_map.mp inItems
    obtain ⟨inTargets, otherTarget⟩ := List.mem_filter.mp inTargets
    have inRoutes' : (edge.source, entry.2) ∈ routes := isSource ▸ inRoutes
    refine ⟨⟨entry.2, inRoutes', old, inOld, isOutput, inTargets⟩, ?_, ?_⟩
    · rw [← isSource]
      exact of_decide_eq_true other
    · rw [← trimmed inRoutes' inOld inTargets]
      exact of_decide_eq_true otherTarget
  · intro ⟨⟨items, inRoutes, route, inItems, isOutput, inTargets⟩, source, target⟩
    refine ⟨items.map (OutputRoute.without removedId),
      List.mem_map.mpr ⟨(edge.source, items), List.mem_filter.mpr ⟨inRoutes, decide_eq_true source⟩, rfl⟩,
      route.without removedId, List.mem_map_of_mem inItems, isOutput,
      List.mem_filter.mpr ⟨inTargets, decide_eq_true ?_⟩⟩
    rw [trimmed inRoutes inItems inTargets]
    exact target

theorem OutputRoute.without_eq {route : OutputRoute}
    (same : (route.without removedId).targets.length = route.targets.length) : route.without removedId = route := by
  have targets := (route.without_sublist removedId).eq_of_length same
  cases route
  rw [without] at targets ⊢
  exact congrArg (OutputRoute.mk _) targets

theorem pruneChanges_iff : pruneChanges removedId routes = true ↔ prunedRoutes removedId routes ≠ routes := by
  rw [← Bool.not_eq_false, not_iff_not]
  constructor
  · intro unchanged
    have keeps : ∀ entry ∈ routes, entry.1 ≠ removedId ∧ ∀ route ∈ entry.2, route.without removedId = route := by
      intro entry mem
      have here := List.any_eq_false.mp unchanged entry mem
      rw [Bool.or_eq_true, not_or, decide_eq_true_iff] at here
      refine ⟨here.1, fun route inItems => OutputRoute.without_eq ?_⟩
      have length := List.any_eq_false.mp (Bool.not_eq_true _ ▸ here.2) route inItems
      simpa using length
    have allKept : routes.filter (fun entry => entry.1 ≠ removedId) = routes :=
      List.filter_eq_self.mpr fun entry mem => decide_eq_true (keeps entry mem).1
    rw [prunedRoutes, allKept]
    refine (List.map_congr_left fun entry mem => ?_).trans (List.map_id routes)
    have items : entry.2.map (OutputRoute.without removedId) = entry.2 :=
      (List.map_congr_left (keeps entry mem).2).trans (List.map_id _)
    rw [items]
    rfl
  · intro same
    refine List.any_eq_false.mpr fun entry mem => ?_
    have isPruned := mem
    rw [← same] at isPruned
    obtain ⟨old, inRoutes, rfl⟩ := List.mem_map.mp isPruned
    have other := of_decide_eq_true (List.mem_filter.mp inRoutes).2
    rw [Bool.or_eq_true, not_or, decide_eq_true_iff]
    refine ⟨other, ?_⟩
    rw [Bool.not_eq_true]
    refine List.any_eq_false.mpr (List.forall_mem_map.mpr fun route _ => ?_)
    have again : (route.without removedId).without removedId = route.without removedId := by
      rw [OutputRoute.without, OutputRoute.without, List.filter_filter]
      simp
    simp [again]

end

/-! ### A node gets another id -/

section

variable {repr : Json → String} {old new : String}

def renamedId (old new id : String) : String := if id = old then new else id

theorem renamedId_inj {id id' : String} (fresh : id ≠ new) (fresh' : id' ≠ new)
    (same : renamedId old new id = renamedId old new id') : id = id' := by
  unfold renamedId at same
  split_ifs at same with isOld isOld' isOld'
  · rw [isOld, isOld']
  · exact absurd same.symm fresh'
  · exact absurd same fresh
  · exact same

theorem renamedId_back {id : String} (fresh : id ≠ new) : renamedId new old (renamedId old new id) = id := by
  unfold renamedId
  split_ifs with isOld isNew
  · exact isOld.symm
  · exact absurd rfl isNew
  · rfl

/-- The table with another id of a node. -/
def renamedRoutes (old new : String) (routes : OutputRoutes) : OutputRoutes :=
  routes.map fun entry => (renamedId old new entry.1, entry.2.map (OutputRoute.rename old new))

theorem not_mentionsNode : mentionsNode routes new = false ↔ ∀ entry ∈ routes, entry.1 ≠ new ∧
    ∀ route ∈ entry.2, ∀ target ∈ route.targets, target.nodeId ≠ new := by
  simp [mentionsNode]

theorem OutputRoute.rename_back {route : OutputRoute} (fresh : ∀ target ∈ route.targets, target.nodeId ≠ new) :
    (route.rename old new).rename new old = route := by
  have targets : ((route.rename old new).rename new old).targets = route.targets := by
    rw [rename, rename, List.map_map]
    refine (List.map_congr_left fun target mem => ?_).trans (List.map_id _)
    have back : renamedId new old (renamedId old new target.nodeId) = target.nodeId := renamedId_back (fresh target mem)
    exact congrArg (RouteTarget.mk · target.inputIndex) back
  exact congrArg (OutputRoute.mk route.outputIndex) targets

theorem renamedRoutes_back (fresh : mentionsNode routes new = false) :
    renamedRoutes new old (renamedRoutes old new routes) = routes := by
  rw [not_mentionsNode] at fresh
  rw [renamedRoutes, renamedRoutes, List.map_map]
  refine (List.map_congr_left fun entry mem => ?_).trans (List.map_id routes)
  have items : (entry.2.map (OutputRoute.rename old new)).map (OutputRoute.rename new old) = entry.2 := by
    rw [List.map_map]
    exact (List.map_congr_left fun route inItems =>
      OutputRoute.rename_back ((fresh entry mem).2 route inItems)).trans (List.map_id _)
  exact Prod.ext (renamedId_back (fresh entry mem).1) items

theorem renamedId_ne (other : old ≠ new) (id : String) : renamedId old new id ≠ old := by
  unfold renamedId
  split_ifs with isOld
  · exact other.symm
  · exact isOld

theorem mentionsNode_renamedRoutes (other : old ≠ new) : mentionsNode (renamedRoutes old new routes) old = false := by
  rw [not_mentionsNode, renamedRoutes]
  refine List.forall_mem_map.mpr fun entry _ => ⟨renamedId_ne other entry.1, ?_⟩
  refine List.forall_mem_map.mpr fun route _ => List.forall_mem_map.mpr fun target _ => ?_
  exact renamedId_ne other target.nodeId

theorem NormalRoutes.nodup_renamed (normal : NormalRoutes parsePortIndex routes)
    (fresh : mentionsNode routes new = false) : ((renamedRoutes old new routes).map Prod.fst).Nodup := by
  rw [not_mentionsNode] at fresh
  have keys : (renamedRoutes old new routes).map Prod.fst = (routes.map Prod.fst).map (renamedId old new) := by
    rw [renamedRoutes, List.map_map, List.map_map]
    rfl
  rw [keys]
  refine normal.nodup.map_on fun id mem id' mem' same => ?_
  obtain ⟨entry, inRoutes, rfl⟩ := List.mem_map.mp mem
  obtain ⟨entry', inRoutes', rfl⟩ := List.mem_map.mp mem'
  exact renamedId_inj (fresh entry inRoutes).1 (fresh entry' inRoutes').1 same

theorem NormalRoutes.renamedRoutes (normal : NormalRoutes parsePortIndex routes) (trimmed : pyStrip new = new)
    (named : new ≠ "") (fresh : mentionsNode routes new = false) :
    NormalRoutes parsePortIndex (renamedRoutes old new routes) := by
  have renamed : ∀ id, pyStrip id = id ∧ id ≠ "" →
      pyStrip (renamedId old new id) = renamedId old new id ∧ renamedId old new id ≠ "" := by
    intro id isId
    unfold renamedId
    split_ifs
    · exact ⟨trimmed, named⟩
    · exact isId
  have keys : ((Nodes.renamedRoutes old new routes).map Prod.fst).Nodup := normal.nodup_renamed fresh
  rw [not_mentionsNode] at fresh
  refine ⟨keys, ?_, ?_, ?_, ?_⟩
  all_goals refine List.forall_mem_map.mpr fun entry mem => ?_
  · exact (renamed entry.1 ⟨normal.trimmed entry mem, normal.named entry mem⟩).1
  · exact (renamed entry.1 ⟨normal.trimmed entry mem, normal.named entry mem⟩).2
  · simpa using normal.used entry mem
  · have source := normal.sources entry mem
    constructor
    · rw [List.map_map]
      exact source.nodup
    · refine List.forall_mem_map.mpr fun route inItems => ?_
      have isNormal := source.routes route inItems
      refine ⟨isNormal.index, ?_, List.forall_mem_map.mpr fun target inTargets => ?_⟩
      · refine isNormal.nodup.map_on fun target inTargets target' inTargets' same => ?_
        obtain ⟨id, input⟩ := RouteTarget.mk.inj same
        have sameId := renamedId_inj ((fresh entry mem).2 route inItems target inTargets)
          ((fresh entry mem).2 route inItems target' inTargets') id
        cases target
        cases target'
        exact RouteTarget.mk.injEq .. ▸ ⟨sameId, input⟩
      · have isTarget := isNormal.targets target inTargets
        have isId := renamed target.nodeId ⟨isTarget.trimmed, isTarget.named⟩
        exact ⟨isId.1, isId.2, isTarget.index⟩

theorem foldl_rename {done : OutputRoutes} (nodup : ((done ++ renamedRoutes old new routes).map Prod.fst).Nodup) :
    routes.foldl (fun renamed (sourceId, items) =>
      let nextSourceId := if sourceId = old then new else sourceId
      let existing := (renamed.lookup nextSourceId).getD []
      dictSet renamed nextSourceId (existing ++ items.map (OutputRoute.rename old new))) done =
      done ++ renamedRoutes old new routes := by
  induction routes generalizing done with
  | nil => rw [renamedRoutes, List.map_nil, List.append_nil]; rfl
  | cons entry routes ih =>
    rw [renamedRoutes, List.map_cons, ← renamedRoutes] at nodup ⊢
    have fresh : renamedId old new entry.1 ∉ done.map Prod.fst := by
      intro before
      rw [List.map_append, List.map_cons] at nodup
      exact (List.nodup_append.mp nodup).2.2 _ before _ List.mem_cons_self rfl
    have absent : done.lookup (renamedId old new entry.1) = none := by
      rw [List.lookup_eq_none_iff]
      intro before mem
      have other : renamedId old new entry.1 ≠ before.1 := fun same => fresh (same ▸ List.mem_map_of_mem mem)
      simpa using other
    have set : dictSet done (renamedId old new entry.1)
        ((done.lookup (renamedId old new entry.1)).getD [] ++ entry.2.map (OutputRoute.rename old new)) =
          done ++ [(renamedId old new entry.1, entry.2.map (OutputRoute.rename old new))] := by
      rw [absent, dictSet, if_neg fresh]
      rfl
    rw [List.append_cons] at nodup ⊢
    rw [← ih nodup, ← set]
    rfl

theorem renameOutputRouteNode_eq (normal : NormalRoutes parsePortIndex routes) (namedOld : old ≠ "")
    (named : new ≠ "") (other : old ≠ new) (trimmed : pyStrip new = new)
    (fresh : mentionsNode routes new = false) :
    renameOutputRouteNode repr parsePortIndex routes old new =
      .ok (renamedRoutes old new routes, mentionsNode routes old) := by
  have start : (([] ++ renamedRoutes old new routes).map Prod.fst).Nodup := normal.nodup_renamed fresh
  rw [renameOutputRouteNode, if_neg (by simp [namedOld, named, other]), foldl_rename start, List.nil_append]
  simp only
  rw [normalizeOutputRoutes_json (normal.renamedRoutes trimmed named fresh)]
  rfl

theorem renameOutputRouteNodeRaw_back (normal : NormalRoutes parsePortIndex routes) {oldNodeId newNodeId : String}
    (fresh : mentionsNode routes (pyStrip newNodeId) = false) :
    ∃ next changed, renameOutputRouteNodeRaw repr parsePortIndex routes oldNodeId newNodeId = .ok (next, changed) ∧
      ∃ again, renameOutputRouteNodeRaw repr parsePortIndex next newNodeId oldNodeId = .ok (routes, again) := by
  by_cases skipped : pyStrip oldNodeId = "" ∨ pyStrip newNodeId = "" ∨ pyStrip oldNodeId = pyStrip newNodeId
  · refine ⟨routes, false, if_pos skipped, false, if_pos ?_⟩
    rcases skipped with old | new | same
    · exact .inr (.inl old)
    · exact .inl new
    · exact .inr (.inr same.symm)
  · obtain ⟨namedOld, named, other⟩ : pyStrip oldNodeId ≠ "" ∧ pyStrip newNodeId ≠ "" ∧
        pyStrip oldNodeId ≠ pyStrip newNodeId := by simpa only [not_or] using skipped
    have forth := @renameOutputRouteNode_eq _ _ repr _ _ normal namedOld named other (pyStrip_pyStrip _) fresh
    have renamed : NormalRoutes parsePortIndex (renamedRoutes (pyStrip oldNodeId) (pyStrip newNodeId) routes) :=
      normal.renamedRoutes (pyStrip_pyStrip _) named fresh
    have back := @renameOutputRouteNode_eq _ _ repr _ _ renamed named namedOld other.symm (pyStrip_pyStrip _)
      (mentionsNode_renamedRoutes other)
    rw [renamedRoutes_back fresh] at back
    exact ⟨_, _, forth, _, back⟩

end

/-! ### Tables of known nodes -/

section

variable {repr : Json → String} {validNodeIds : Option (List String)} {place : String}

def KnownNode (validNodeIds : Option (List String)) (nodeId : String) : Prop :=
  ∀ ids, validNodeIds = some ids → nodeId ∈ ids

/-- All nodes of the table are known. -/
def KnownRoutes (validNodeIds : Option (List String)) (routes : OutputRoutes) : Prop :=
  ∀ entry ∈ routes, KnownNode validNodeIds entry.1 ∧
    ∀ route ∈ entry.2, ∀ target ∈ route.targets, KnownNode validNodeIds target.nodeId

theorem requireNode_eq_ok {nodeId text : String} :
    requireNode validNodeIds nodeId text = .ok () ↔ KnownNode validNodeIds nodeId := by
  cases validNodeIds with
  | none => exact iff_of_true rfl nofun
  | some ids =>
    rw [requireNode, require_eq_ok]
    exact ⟨fun known _ same => Option.some.inj same ▸ known, fun known => known ids rfl⟩

theorem knownNode_of_target {raw : Json} {target : RouteTarget}
    (read : normalizeTargetFor repr parsePortIndex validNodeIds place raw = .ok target) :
    KnownNode validNodeIds target.nodeId := by
  cases raw with
  | obj fields =>
    simp only [normalizeTargetFor] at read
    split_ifs at read
    obtain ⟨⟨⟩, known, read⟩ := bind_eq_ok.mp read
    split at read
    · cases read
    · cases read
      exact requireNode_eq_ok.mp known
  | null | bool _ | num _ | str _ | arr _ => cases read

theorem knownNode_of_targets {raw : Json} {targets : List RouteTarget}
    (read : normalizeTargetsFor repr parsePortIndex validNodeIds place raw = .ok targets) :
    ∀ target ∈ targets, KnownNode validNodeIds target.nodeId := by
  have empty : ∀ target ∈ ([] : List RouteTarget), KnownNode validNodeIds target.nodeId := nofun
  cases raw with
  | null =>
    cases read
    exact empty
  | arr items =>
    refine @foldlM_induct _ _ _ _ (fun targets : List RouteTarget =>
      ∀ target ∈ targets, KnownNode validNodeIds target.nodeId) _ _ _ ?_ empty read
    intro before item _ after known step
    obtain ⟨target, isTarget, step⟩ := bind_eq_ok.mp step
    split_ifs at step
    cases step
    exact List.forall_mem_append.mpr ⟨known, List.forall_mem_singleton.mpr (knownNode_of_target isTarget)⟩
  | bool _ | num _ | str _ | obj _ => cases read

theorem knownNode_of_source {sourceId : String} {items : List Json} {routes : List OutputRoute}
    (read : normalizeSourceFor repr parsePortIndex validNodeIds sourceId items = .ok routes) :
    ∀ route ∈ routes, ∀ target ∈ route.targets, KnownNode validNodeIds target.nodeId := by
  have empty : ∀ route ∈ ([] : List OutputRoute), ∀ target ∈ route.targets,
      KnownNode validNodeIds target.nodeId := nofun
  refine @foldlM_induct _ _ _ _ (fun routes : List OutputRoute => ∀ route ∈ routes, ∀ target ∈ route.targets,
    KnownNode validNodeIds target.nodeId) _ _ _ ?_ empty read
  intro before item _ after known step
  obtain ⟨item, index⟩ := item
  cases item with
  | obj fields =>
    simp only at step
    split at step
    · cases step
    · split_ifs at step
      obtain ⟨targets, isTargets, step⟩ := bind_eq_ok.mp step
      cases step
      exact List.forall_mem_append.mpr ⟨known, List.forall_mem_singleton.mpr (knownNode_of_targets isTargets)⟩
  | null | bool _ | num _ | str _ | arr _ => cases step

theorem knownRoutes_of_for {raw : Json}
    (read : normalizeOutputRoutesFor repr parsePortIndex validNodeIds raw = .ok routes) :
    KnownRoutes validNodeIds routes := by
  have empty : KnownRoutes validNodeIds [] := nofun
  cases raw with
  | null =>
    cases read
    exact empty
  | obj fields =>
    refine foldlM_induct (fun before item _ after known step => ?_) empty read
    simp only at step
    split_ifs at step
    obtain ⟨⟨⟩, isKnown, step⟩ := bind_eq_ok.mp step
    split at step
    · obtain ⟨items, isSource, step⟩ := bind_eq_ok.mp step
      cases step
      split_ifs
      · exact known
      · intro entry mem
        unfold dictSet at mem
        split_ifs at mem
        · obtain ⟨other, inBefore, rfl⟩ := List.mem_map.mp mem
          split_ifs
          · exact ⟨requireNode_eq_ok.mp isKnown, knownNode_of_source isSource⟩
          · exact known other inBefore
        · rcases List.mem_append.mp mem with inBefore | isNew
          · exact known entry inBefore
          · rw [List.mem_singleton.mp isNew]
            exact ⟨requireNode_eq_ok.mp isKnown, knownNode_of_source isSource⟩
    · cases step
  | bool _ | num _ | str _ | arr _ => cases read

theorem normalizeTargetFor_json {target : RouteTarget} (normal : NormalTarget parsePortIndex target)
    (known : KnownNode validNodeIds target.nodeId) :
    normalizeTargetFor repr parsePortIndex validNodeIds place target.json =
      normalizeTarget repr parsePortIndex place target.json := by
  have isName : pyStrip (Json.strOr repr "" (List.lookup "node_id"
      [("node_id", Json.str target.nodeId), ("input_index", Json.nat target.inputIndex)])) = target.nodeId := by
    have named := normal.named
    simp [Json.strOr, Json.truthy, Json.pyStr, named, normal.trimmed]
  rw [RouteTarget.json, normalizeTargetFor, normalizeTarget]
  simp only [isName, if_neg normal.named, requireNode_eq_ok.mpr known]
  rfl

theorem normalizeOutputRoutesFor_json (normal : NormalRoutes parsePortIndex routes)
    (known : KnownRoutes validNodeIds routes) :
    normalizeOutputRoutesFor repr parsePortIndex validNodeIds (routesJson routes) = .ok routes := by
  rw [← normalizeOutputRoutes_json normal]
  refine foldlM_congr (fun table item mem => ?_) []
  obtain ⟨⟨sourceId, items⟩, inRoutes, rfl⟩ := List.mem_map.mp mem
  have source := normal.sources (sourceId, items) inRoutes
  have knownHere := known (sourceId, items) inRoutes
  have targets : ∀ place, ∀ route ∈ items,
      normalizeTargetsFor repr parsePortIndex validNodeIds place (.arr (route.targets.map RouteTarget.json)) =
        normalizeTargets repr parsePortIndex place (.arr (route.targets.map RouteTarget.json)) := by
    intro place route inItems
    refine foldlM_congr (fun targets item mem => ?_) []
    obtain ⟨target, inTargets, isItem⟩ := List.mem_map.mp (List.fst_mem_of_mem_zipIdx mem)
    simp only
    rw [← isItem, normalizeTargetFor_json ((source.routes route inItems).targets target inTargets)
      (knownHere.2 route inItems target inTargets)]
  have isSource : normalizeSourceFor repr parsePortIndex validNodeIds sourceId (items.map OutputRoute.json) =
      normalizeSource repr parsePortIndex sourceId (items.map OutputRoute.json) := by
    refine foldlM_congr (fun table item mem => ?_) []
    obtain ⟨item, index⟩ := item
    obtain ⟨route, inItems, isItem⟩ := List.mem_map.mp (List.fst_mem_of_mem_zipIdx mem)
    simp only at isItem
    have isTargets : field [("output_index", .nat route.outputIndex),
        ("targets", .arr (route.targets.map RouteTarget.json))] "targets" =
          .arr (route.targets.map RouteTarget.json) := rfl
    simp only [← isItem, OutputRoute.json, isTargets]
    cases parsePortIndex (field _ "output_index") with
    | none => rfl
    | some outputIndex => simp only [targets _ route inItems]
  have trimmed : pyStrip sourceId = sourceId := normal.trimmed (sourceId, items) inRoutes
  have named : sourceId ≠ "" := normal.named (sourceId, items) inRoutes
  simp only [trimmed, if_neg named, requireNode_eq_ok.mpr knownHere.1, isSource]
  rfl

end

/-! ### The laws together -/

section

variable (repr : Json → String) (parsePortIndex : Json → Option Nat) (validNodeIds : Option (List String))

/-- What routes and links promise of a table `routes` that was read from `raw`. -/
structure TwoViews (raw : Json) (routes : OutputRoutes) : Prop where
  idempotent : normalizeOutputRoutesFor repr parsePortIndex validNodeIds (routesJson routes) = .ok routes
  /-- The links are those of the edges, and give the edges back with the targets of each output in order. -/
  roundTrip : ∃ links again, readLinksFromGraph repr parsePortIndex raw = .ok links ∧
    links = (edgeList routes).map RouteEdge.link ∧
    endpointLinksToOutputRoutes repr parsePortIndex links = .ok again ∧ routeEdges again = routeEdges routes ∧
    ∀ source outputIndex, outputTargets again source outputIndex = outputTargets routes source outputIndex
  distinctIds : ∀ edge ∈ routeEdges routes, ∀ other ∈ routeEdges routes, edge ≠ other → edge.linkId ≠ other.linkId
  prunes : ∀ nodeId, ∃ next changed,
    pruneOutputRoutesForRemovedNode repr parsePortIndex routes nodeId = .ok (next, changed) ∧
    (∀ edge, edge ∈ routeEdges next ↔ edge ∈ routeEdges routes ∧ ¬ edge.Touches [pyStrip nodeId]) ∧
    (changed = true ↔ next ≠ routes)
  renames : ∀ oldNodeId newNodeId, mentionsNode routes (pyStrip newNodeId) = false → ∃ next changed,
    renameOutputRouteNodeRaw repr parsePortIndex routes oldNodeId newNodeId = .ok (next, changed) ∧
      ∃ again, renameOutputRouteNodeRaw repr parsePortIndex next newNodeId oldNodeId = .ok (routes, again)

end

section

variable {repr : Json → String} {validNodeIds : Option (List String)}

theorem NormalRoutes.not_touches_empty (normal : NormalRoutes parsePortIndex routes) (mem : edge ∈ routeEdges routes) :
    ¬ edge.Touches [""] := by
  have isNormal := normal.normalEdge (mem_edgeList.mpr mem)
  rw [RouteEdge.Touches, List.mem_singleton, List.mem_singleton, not_or]
  exact ⟨isNormal.named, isNormal.target.named⟩

theorem NormalRoutes.prunes (normal : NormalRoutes parsePortIndex routes) (nodeId : String) : ∃ next changed,
    pruneOutputRoutesForRemovedNode repr parsePortIndex routes nodeId = .ok (next, changed) ∧
    (∀ edge, edge ∈ routeEdges next ↔ edge ∈ routeEdges routes ∧ ¬ edge.Touches [pyStrip nodeId]) ∧
    (changed = true ↔ next ≠ routes) := by
  by_cases named : pyStrip nodeId = ""
  · refine ⟨routes, false, if_pos named, fun edge => ?_, by simp⟩
    rw [named]
    exact ⟨fun mem => ⟨mem, normal.not_touches_empty mem⟩, And.left⟩
  · exact ⟨_, _, pruneOutputRoutesForRemovedNode_eq normal named,
      fun edge => mem_routeEdges_prunedRoutes normal, pruneChanges_iff⟩

/-- **Routes and links are two views of one graph exactly when no edge of the table overlaps another one.** -/
theorem twoViews_iff (stable : StableIndex parsePortIndex) {raw : Json}
    (read : normalizeOutputRoutesFor repr parsePortIndex validNodeIds raw = .ok routes) :
    TwoViews repr parsePortIndex validNodeIds raw routes ↔
      ∀ edge ∈ routeEdges routes, ∀ other ∈ routeEdges routes, ¬ edge.Overlaps other := by
  have plain := normalizeOutputRoutes_of_for read
  have normal := normalizeOutputRoutes_normal stable plain
  constructor
  · intro views edge mem other otherMem laps
    exact views.distinctIds edge mem other otherMem laps.ne (linkId_eq_iff.mpr (.inr (.inl laps)))
  · intro apart
    refine ⟨normalizeOutputRoutesFor_json normal (knownRoutes_of_for read), ?_, ?_, normal.prunes,
      fun _ _ fresh => renameOutputRouteNodeRaw_back normal fresh⟩
    · exact ⟨_, _, readLinksFromGraph_eq stable plain, rfl, endpointLinksToOutputRoutes_eq normal,
        routeEdges_usedRoutes routes, outputTargets_usedRoutes routes⟩
    · intro edge mem other otherMem differs sameId
      rcases linkId_eq_iff.mp sameId with same | laps | laps
      · exact differs same
      · exact apart edge mem other otherMem laps
      · exact apart other otherMem edge mem laps

/-- Two edges of `a` to `b` and one to `c`, and an edge of `b` to `c`. -/
def fourEdges : OutputRoutes :=
  [("a", [{ outputIndex := 0, targets := [{ nodeId := "b", inputIndex := 0 }, { nodeId := "c", inputIndex := 1 }] },
      { outputIndex := 2, targets := [{ nodeId := "b", inputIndex := 1 }] }]),
    ("b", [{ outputIndex := 0, targets := [{ nodeId := "c", inputIndex := 0 }] }])]

/-- Two edges: from `a` to `b-1-c`, and from `a-0-b` to `c`. -/
def dashedEdges : OutputRoutes :=
  [("a", [{ outputIndex := 0, targets := [{ nodeId := "b-1-c", inputIndex := 0 }] }]),
    ("a-0-b", [{ outputIndex := 1, targets := [{ nodeId := "c", inputIndex := 0 }] }])]

theorem normalSource_single {outputIndex inputIndex : Nat} {nodeId : String} (output : outputIndex < 10)
    (input : inputIndex < 10) (trimmed : pyStrip nodeId = nodeId) (named : nodeId ≠ "") :
    NormalSource digitIndex [{ outputIndex, targets := [{ nodeId, inputIndex }] }] := by
  have index : ∀ n < 10, digitIndex (.nat n) = some n := by decide +kernel
  refine ⟨List.nodup_singleton _, List.forall_mem_singleton.mpr ⟨index _ output, List.nodup_singleton _, ?_⟩⟩
  exact List.forall_mem_singleton.mpr ⟨trimmed, named, index _ input⟩

theorem fourEdges_normal : NormalRoutes digitIndex fourEdges := by
  have index : ∀ n < 10, digitIndex (.nat n) = some n := by decide +kernel
  refine ⟨by decide, ?_, ?_, ?_, ?_⟩
  all_goals refine List.forall_mem_cons.mpr ⟨?_, List.forall_mem_singleton.mpr ?_⟩
  · decide +kernel
  · decide +kernel
  · decide
  · decide
  · simp
  · simp
  · refine ⟨by simp, List.forall_mem_cons.mpr ⟨?_, List.forall_mem_singleton.mpr ?_⟩⟩
    · refine ⟨index 0 (by decide), by simp, List.forall_mem_cons.mpr ⟨?_, List.forall_mem_singleton.mpr ?_⟩⟩
      · exact ⟨by decide +kernel, by decide, index 0 (by decide)⟩
      · exact ⟨by decide +kernel, by decide, index 1 (by decide)⟩
    · refine ⟨index 2 (by decide), by simp, List.forall_mem_singleton.mpr ?_⟩
      exact ⟨by decide +kernel, by decide, index 1 (by decide)⟩
  · exact normalSource_single (by decide) (by decide) (by decide +kernel) (by decide)

theorem dashedEdges_normal : NormalRoutes digitIndex dashedEdges := by
  refine ⟨by decide, ?_, ?_, ?_, ?_⟩
  all_goals refine List.forall_mem_cons.mpr ⟨?_, List.forall_mem_singleton.mpr ?_⟩
  · decide +kernel
  · decide +kernel
  · decide
  · decide
  · simp
  · simp
  · exact normalSource_single (by decide) (by decide) (by decide +kernel) (by decide)
  · exact normalSource_single (by decide) (by decide) (by decide +kernel) (by decide)

/-- Both views show the four edges. -/
theorem twoViews_fourEdges :
    TwoViews (fun _ => "") digitIndex (some ["a", "b", "c"]) (routesJson fourEdges) fourEdges := by
  have known : KnownRoutes (some ["a", "b", "c"]) fourEdges := by
    simp [KnownRoutes, KnownNode, fourEdges]
  refine (twoViews_iff digitIndex_stable (normalizeOutputRoutesFor_json fourEdges_normal known)).mpr ?_
  -- edges that overlap share an id, and no two of these do
  have distinct : ∀ edge ∈ edgeList fourEdges, ∀ other ∈ edgeList fourEdges, edge ≠ other →
      edge.linkId ≠ other.linkId := by
    decide +kernel
  intro edge mem other otherMem laps
  exact distinct edge (mem_edgeList.mpr mem) other (mem_edgeList.mpr otherMem) laps.ne
    (linkId_eq_iff.mpr (.inr (.inl laps)))

/-- The two edges have the same id. -/
theorem twoViews_dashed : ¬ TwoViews (fun _ => "") digitIndex none (routesJson dashedEdges) dashedEdges ∧
    normalizeOutputRoutesFor (fun _ => "") digitIndex none (routesJson dashedEdges) = .ok dashedEdges := by
  have known : KnownRoutes none dashedEdges := fun _ _ => ⟨nofun, fun _ _ _ _ => nofun⟩
  refine ⟨fun views => ?_, normalizeOutputRoutesFor_json dashedEdges_normal known⟩
  refine views.distinctIds ⟨"a", 0, ⟨"b-1-c", 0⟩⟩ (mem_edgeList.mp (by decide)) ⟨"a-0-b", 1, ⟨"c", 0⟩⟩
    (mem_edgeList.mp (by decide)) (by decide) ?_
  decide +kernel

end

end AgentPark.Nodes
