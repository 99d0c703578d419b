import AgentPark.Nodes.References

/-!
# Route tables

A route table gives the outputs of a node their targets.  `normalizeOutputRoutes` reads one; here is
what it returns, and that it returns a table it has read once as it is.
-/

namespace AgentPark.Nodes

open Lib

/-! ### Normal tables -/

section
variable (parsePortIndex : Json → Option Nat)

structure NormalTarget (target : RouteTarget) : Prop where
  trimmed : pyStrip target.nodeId = target.nodeId
  named : target.nodeId ≠ ""
  index : parsePortIndex (.nat target.inputIndex) = some target.inputIndex

structure NormalRoute (route : OutputRoute) : Prop where
  index : parsePortIndex (.nat route.outputIndex) = some route.outputIndex
  nodup : route.targets.Nodup
  targets : ∀ target ∈ route.targets, NormalTarget parsePortIndex target

structure NormalSource (routes : List OutputRoute) : Prop where
  nodup : (routes.map OutputRoute.outputIndex).Nodup
  routes : ∀ route ∈ routes, NormalRoute parsePortIndex route

/-- A table as `normalizeOutputRoutes` returns it. -/
structure NormalRoutes (routes : OutputRoutes) : Prop where
  nodup : (routes.map Prod.fst).Nodup
  trimmed : ∀ entry ∈ routes, pyStrip entry.1 = entry.1
  named : ∀ entry ∈ routes, entry.1 ≠ ""
  used : ∀ entry ∈ routes, entry.2 ≠ []
  sources : ∀ entry ∈ routes, NormalSource parsePortIndex entry.2

/-- An index that has been read once is read again as it is. -/
def StableIndex : Prop := ∀ value index, parsePortIndex value = some index →
  parsePortIndex (.nat index) = some index

end

def digitIndex (value : Json) : Option Nat := (List.range 10).find? fun index => Json.nat index = value

theorem digitIndex_stable : StableIndex digitIndex := by
  intro value index isIndex
  have same : Json.nat index = value := by
    simpa using List.find?_some (show (List.range 10).find? _ = some index from isIndex)
  rw [same]
  exact isIndex

section
variable {repr : Json → String} {parsePortIndex : Json → Option Nat} {place : String}

/-! ### What is returned is normal -/

variable {raw : Json}

theorem normalizeTarget_normal (stable : StableIndex parsePortIndex) {target : RouteTarget}
    (read : normalizeTarget repr parsePortIndex place raw = .ok target) :
    NormalTarget parsePortIndex target := by
  cases raw with
  | obj fields =>
    simp only [normalizeTarget] at read
    split_ifs at read with blank
    split at read
    · cases read
    · rename_i index isIndex
      cases read
      exact ⟨pyStrip_pyStrip _, blank, stable _ _ isIndex⟩
  | null | bool _ | num _ | str _ | arr _ => cases read

variable {targets : List RouteTarget}

theorem normalizeTargets_normal (stable : StableIndex parsePortIndex)
    (read : normalizeTargets repr parsePortIndex place raw = .ok targets) :
    targets.Nodup ∧ ∀ target ∈ targets, NormalTarget parsePortIndex target := by
  cases raw with
  | null =>
    cases read
    exact ⟨.nil, fun _ mem => (by cases mem)⟩
  | arr items =>
    have empty : ([] : List RouteTarget).Nodup ∧ ∀ target ∈ [], NormalTarget parsePortIndex target :=
      ⟨.nil, fun _ mem => (by cases mem)⟩
    refine foldlM_induct (P := fun targets => targets.Nodup ∧ ∀ target ∈ targets,
      NormalTarget parsePortIndex target) ?_ empty read
    rintro before ⟨item, index⟩ - after ⟨nodup, normal⟩ step
    obtain ⟨target, isTarget, step⟩ := bind_eq_ok.mp step
    split_ifs at step with double
    cases step
    refine ⟨List.nodup_append.mpr ⟨nodup, List.nodup_singleton target, ?_⟩,
      List.forall_mem_append.mpr ⟨normal, List.forall_mem_singleton.mpr (normalizeTarget_normal stable isTarget)⟩⟩
    intro old inBefore new isNew same
    rw [same, List.mem_singleton.mp isNew] at inBefore
    exact double inBefore
  | bool _ | num _ | str _ | obj _ => cases read

variable {sourceId : String}

theorem normalizeSource_normal (stable : StableIndex parsePortIndex) {items : List Json}
    {routes : List OutputRoute}
    (read : normalizeSource repr parsePortIndex sourceId items = .ok routes) :
    NormalSource parsePortIndex routes := by
  have empty : NormalSource parsePortIndex [] := ⟨List.nodup_nil, fun _ mem => (by cases mem)⟩
  refine foldlM_induct ?_ empty read
  rintro before ⟨item, index⟩ - after ⟨nodup, normal⟩ step
  cases item with
  | obj fields =>
    simp only at step
    split at step
    · cases step
    · rename_i outputIndex isIndex
      split_ifs at step with double
      obtain ⟨targets, isTargets, step⟩ := bind_eq_ok.mp step
      cases step
      obtain ⟨distinct, normalTargets⟩ := normalizeTargets_normal stable isTargets
      constructor
      · rw [List.map_append, List.nodup_append]
        refine ⟨nodup, List.nodup_singleton _, ?_⟩
        intro old inBefore new isNew same
        obtain ⟨route, inRoutes, isOld⟩ := List.mem_map.mp inBefore
        rw [List.map_singleton, List.mem_singleton] at isNew
        refine double (List.any_eq_true.mpr ⟨route, inRoutes, ?_⟩)
        rw [decide_eq_true_eq, isOld, same, isNew]
      · exact List.forall_mem_append.mpr ⟨normal,
          List.forall_mem_singleton.mpr ⟨stable _ _ isIndex, distinct, normalTargets⟩⟩
  | null | bool _ | num _ | str _ | arr _ => cases step

variable {routes : OutputRoutes}

theorem NormalRoutes.set {items : List OutputRoute} (normal : NormalRoutes parsePortIndex routes)
    (trimmed : pyStrip sourceId = sourceId) (named : sourceId ≠ "") (used : items ≠ [])
    (source : NormalSource parsePortIndex items) :
    NormalRoutes parsePortIndex (dictSet routes sourceId items) := by
  have keys : ∀ entry ∈ dictSet routes sourceId items, entry.1 = sourceId ∨ entry.1 ∈ routes.map Prod.fst := by
    intro entry mem
    have isKey : entry.1 ∈ (dictSet routes sourceId items).map Prod.fst := List.mem_map_of_mem mem
    rw [keys_dictSet] at isKey
    split_ifs at isKey with old
    · exact .inr isKey
    · rcases List.mem_append.mp isKey with before | new
      · exact .inr before
      · exact .inl (List.mem_singleton.mp new)
  have fromKey : ∀ {P : String → Prop}, P sourceId → (∀ entry ∈ routes, P entry.1) →
      ∀ entry ∈ dictSet routes sourceId items, P entry.1 := by
    intro P new old entry mem
    rcases keys entry mem with isNew | isOld
    · rw [isNew]
      exact new
    · obtain ⟨before, inRoutes, same⟩ := List.mem_map.mp isOld
      rw [← same]
      exact old before inRoutes
  exact ⟨nodup_dictSet normal.nodup _ _, @fromKey (fun key => pyStrip key = key) trimmed normal.trimmed,
    @fromKey (fun key => key ≠ "") named normal.named,
    @forall_mem_dictSet _ _ _ (fun items => items ≠ []) _ normal.used _ _ used,
    forall_mem_dictSet normal.sources _ source⟩

/-- What is returned is normal. -/
theorem normalizeOutputRoutes_normal (stable : StableIndex parsePortIndex)
    (read : normalizeOutputRoutes repr parsePortIndex raw = .ok routes) :
    NormalRoutes parsePortIndex routes := by
  have empty : NormalRoutes parsePortIndex [] := ⟨.nil, nofun, nofun, nofun, nofun⟩
  cases raw with
  | null =>
    cases read
    exact empty
  | obj fields =>
    refine foldlM_induct ?_ empty read
    rintro before ⟨rawSourceId, rawItems⟩ - after normal step
    simp only at step
    split_ifs at step with blank
    split at step
    · obtain ⟨items, isSource, step⟩ := bind_eq_ok.mp step
      cases step
      split_ifs with none
      · exact normal
      · exact normal.set (pyStrip_pyStrip _) blank none (normalizeSource_normal stable isSource)
    · cases step
  | bool _ | num _ | str _ | arr _ => cases read

/-! ### A normal table is returned as it is -/

theorem normalizeTarget_json {target : RouteTarget} (normal : NormalTarget parsePortIndex target) :
    normalizeTarget repr parsePortIndex place target.json = .ok target := by
  have isName : Json.strOr repr "" (some (.str target.nodeId)) = target.nodeId := by
    simp [Json.strOr, Json.truthy, Json.pyStr, normal.named]
  have isIndex : [("node_id", Json.str target.nodeId), ("input_index", Json.nat target.inputIndex)].lookup
      "input_index" = some (.nat target.inputIndex) := rfl
  have isNodeId : [("node_id", Json.str target.nodeId), ("input_index", Json.nat target.inputIndex)].lookup
      "node_id" = some (.str target.nodeId) := rfl
  rw [RouteTarget.json, normalizeTarget, isNodeId, isName, normal.trimmed, isIndex]
  simp [normal.named, normal.index]

theorem foldlM_targets {done : List RouteTarget} (start : Nat)
    (normal : ∀ target ∈ targets, NormalTarget parsePortIndex target)
    (nodup : (done ++ targets).Nodup) :
    ((targets.map RouteTarget.json).zipIdx start).foldlM (fun targets (item, index) => do
      let target ← normalizeTarget repr parsePortIndex (place ++ ".targets[" ++ toString index ++ "]") item
      if target ∈ targets then
        .error (valueError (place ++ " contains duplicate target " ++ target.nodeId ++ ":" ++
          toString target.inputIndex))
      else .ok (targets ++ [target])) done = (.ok (done ++ targets) : Except Failure (List RouteTarget)) := by
  induction targets generalizing done start with
  | nil => rw [List.append_nil]; rfl
  | cons target targets ih =>
    obtain ⟨first, later⟩ := List.forall_mem_cons.mp normal
    have fresh : target ∉ done := fun mem =>
      (List.nodup_append.mp nodup).2.2 target mem target List.mem_cons_self rfl
    rw [List.append_cons] at nodup ⊢
    refine bind_eq_ok.mpr ⟨done ++ [target], ?_, ih (start + 1) later nodup⟩
    refine bind_eq_ok.mpr ⟨target, normalizeTarget_json first, ?_⟩
    exact if_neg fresh

theorem normalizeTargets_json (nodup : targets.Nodup)
    (normal : ∀ target ∈ targets, NormalTarget parsePortIndex target) :
    normalizeTargets repr parsePortIndex place (.arr (targets.map RouteTarget.json)) = .ok targets :=
  foldlM_targets 0 normal nodup

theorem foldlM_source {routes done : List OutputRoute} (start : Nat)
    (normal : ∀ route ∈ routes, NormalRoute parsePortIndex route)
    (nodup : ((done ++ routes).map OutputRoute.outputIndex).Nodup) :
    ((routes.map OutputRoute.json).zipIdx start).foldlM (fun routes (item, index) =>
      let place := "output_routes[" ++ sourceId ++ "][" ++ toString index ++ "]"
      match item with
      | .obj fields =>
        match parsePortIndex (field fields "output_index") with
        | none => .error (valueError (place ++ ".output_index must be a non-negative integer"))
        | some outputIndex =>
          if routes.any (fun route => route.outputIndex = outputIndex) then
            .error (valueError ("output_routes[" ++ sourceId ++
              "] contains duplicate output_index " ++ toString outputIndex))
          else do
            let targets ← normalizeTargets repr parsePortIndex place (field fields "targets")
            .ok (routes ++ [{ outputIndex, targets }])
      | _ => .error (valueError (place ++ " must be an object"))) done =
        (.ok (done ++ routes) : Except Failure (List OutputRoute)) := by
  induction routes generalizing done start with
  | nil => rw [List.append_nil]; rfl
  | cons route routes ih =>
    obtain ⟨first, later⟩ := List.forall_mem_cons.mp normal
    have fresh : ¬ done.any (fun old => old.outputIndex = route.outputIndex) = true := by
      intro double
      obtain ⟨old, mem, same⟩ := List.any_eq_true.mp double
      rw [List.map_append, List.nodup_append] at nodup
      exact nodup.2.2 _ (List.mem_map_of_mem mem) _ List.mem_cons_self (of_decide_eq_true same)
    rw [List.append_cons] at nodup ⊢
    refine bind_eq_ok.mpr ⟨done ++ [route], ?_, ih (start + 1) later nodup⟩
    have isIndex : field [("output_index", .nat route.outputIndex),
        ("targets", .arr (route.targets.map RouteTarget.json))] "output_index" = .nat route.outputIndex := rfl
    have isTargets : field [("output_index", .nat route.outputIndex),
        ("targets", .arr (route.targets.map RouteTarget.json))] "targets" =
          .arr (route.targets.map RouteTarget.json) := rfl
    simp only [OutputRoute.json, isIndex, isTargets, first.index]
    rw [if_neg fresh]
    exact bind_eq_ok.mpr ⟨route.targets, normalizeTargets_json first.nodup first.targets, rfl⟩

theorem normalizeSource_json {routes : List OutputRoute}
    (normal : NormalSource parsePortIndex routes) :
    normalizeSource repr parsePortIndex sourceId (routes.map OutputRoute.json) = .ok routes :=
  foldlM_source 0 normal.routes normal.nodup

theorem foldlM_routes {done : OutputRoutes} (normal : NormalRoutes parsePortIndex (done ++ routes)) :
    (routes.map fun entry => (entry.1, Json.arr (entry.2.map OutputRoute.json))).foldlM
      (fun normalized (rawSourceId, rawItems) =>
        let sourceId := pyStrip rawSourceId
        if sourceId = "" then .error (valueError "output_routes source node id is required")
        else
          match rawItems with
          | .arr items => do
            let routes ← normalizeSource repr parsePortIndex sourceId items
            .ok (if routes = [] then normalized else dictSet normalized sourceId routes)
          | _ => .error (valueError ("output_routes[" ++ sourceId ++ "] must be an array"))) done =
      (.ok (done ++ routes) : Except Failure OutputRoutes) := by
  induction routes generalizing done with
  | nil => rw [List.append_nil]; rfl
  | cons entry routes ih =>
    obtain ⟨sourceId, items⟩ := entry
    have fresh : sourceId ∉ done.map Prod.fst := by
      intro old
      have nodup := normal.nodup
      rw [List.map_append, List.nodup_append] at nodup
      exact nodup.2.2 _ old _ List.mem_cons_self rfl
    rw [List.append_cons] at normal ⊢
    have trimmed : pyStrip sourceId = sourceId := normal.trimmed (sourceId, items) (by simp)
    have named : sourceId ≠ "" := normal.named (sourceId, items) (by simp)
    have used : items ≠ [] := normal.used (sourceId, items) (by simp)
    have isSource : normalizeSource repr parsePortIndex sourceId (items.map OutputRoute.json) = .ok items :=
      normalizeSource_json (normal.sources (sourceId, items) (by simp))
    rw [List.map_cons, List.foldlM_cons, ← ih normal]
    simp only [trimmed, if_neg named, isSource]
    change (Except.ok (if items = [] then done else dictSet done sourceId items) >>= _) = _
    rw [if_neg used, dictSet, if_neg fresh]
    rfl

/-- A normal table is returned as it is. -/
theorem normalizeOutputRoutes_json (normal : NormalRoutes parsePortIndex routes) :
    normalizeOutputRoutes repr parsePortIndex (routesJson routes) = .ok routes := by
  have start : NormalRoutes parsePortIndex ([] ++ routes) := normal
  exact foldlM_routes start

/-! ### Tables of nodes that exist -/

def requireNode (validNodeIds : Option (List String)) (nodeId text : String) : Except Failure Unit :=
  match validNodeIds with
  | some ids => require (nodeId ∈ ids) (valueError text)
  | none => .ok ()

end

section
variable (repr : Json → String) (parsePortIndex : Json → Option Nat) (validNodeIds : Option (List String))

def normalizeTargetFor (place : String) : Json → Except Failure RouteTarget
  | .obj target =>
    let nodeId := pyStrip (Json.strOr repr "" (target.lookup "node_id"))
    if nodeId = "" then .error (valueError (place ++ ".node_id is required"))
    else do
      requireNode validNodeIds nodeId ("output_routes target node does not exist: " ++ nodeId)
      match parsePortIndex ((target.lookup "input_index").getD (.nat 0)) with
      | none => .error (valueError (place ++ ".input_index must be a non-negative integer"))
      | some inputIndex => .ok { nodeId, inputIndex }
  | _ => .error (valueError (place ++ " must be an object"))

def normalizeTargetsFor (place : String) (raw : Json) : Except Failure (List RouteTarget) :=
  match raw with
  | .null => .ok []
  | .arr items =>
    items.zipIdx.foldlM (fun targets (item, index) => do
      let target ← normalizeTargetFor repr parsePortIndex validNodeIds
        (place ++ ".targets[" ++ toString index ++ "]") item
      if target ∈ targets then
        .error (valueError (place ++ " contains duplicate target " ++ target.nodeId ++ ":" ++
          toString target.inputIndex))
      else .ok (targets ++ [target])) []
  | _ => .error (valueError (place ++ ".targets must be an array"))

def normalizeSourceFor (sourceId : String) (items : List Json) : Except Failure (List OutputRoute) :=
  items.zipIdx.foldlM (fun routes (item, index) =>
    let place := "output_routes[" ++ sourceId ++ "][" ++ toString index ++ "]"
    match item with
    | .obj fields =>
      match parsePortIndex (field fields "output_index") with
      | none => .error (valueError (place ++ ".output_index must be a non-negative integer"))
      | some outputIndex =>
        if routes.any (fun route => route.outputIndex = outputIndex) then
          .error (valueError ("output_routes[" ++ sourceId ++
            "] contains duplicate output_index " ++ toString outputIndex))
        else do
          let targets ← normalizeTargetsFor repr parsePortIndex validNodeIds place (field fields "targets")
          .ok (routes ++ [{ outputIndex, targets }])
    | _ => .error (valueError (place ++ " must be an object"))) []

/-- `normalize_output_routes` with `valid_node_ids`. -/
def normalizeOutputRoutesFor : Json → Except Failure OutputRoutes
  | .null => .ok []
  | .obj fields =>
    fields.foldlM (fun normalized (rawSourceId, rawItems) =>
      let sourceId := pyStrip rawSourceId
      if sourceId = "" then .error (valueError "output_routes source node id is required")
      else do
        requireNode validNodeIds sourceId ("output_routes source node does not exist: " ++ sourceId)
        match rawItems with
        | .arr items => do
          let routes ← normalizeSourceFor repr parsePortIndex validNodeIds sourceId items
          .ok (if routes = [] then normalized else dictSet normalized sourceId routes)
        | _ => .error (valueError ("output_routes[" ++ sourceId ++ "] must be an array"))) []
  | _ => .error (valueError "graph output_routes must be an object")

end

section
variable {repr : Json → String} {parsePortIndex : Json → Option Nat} {place : String}
variable {validNodeIds : Option (List String)}

variable {raw : Json}

theorem normalizeTarget_of_for {target : RouteTarget}
    (read : normalizeTargetFor repr parsePortIndex validNodeIds place raw = .ok target) :
    normalizeTarget repr parsePortIndex place raw = .ok target := by
  cases raw with
  | obj fields =>
    simp only [normalizeTargetFor, normalizeTarget] at read ⊢
    split_ifs at read ⊢
    obtain ⟨-, -, later⟩ := bind_eq_ok.mp read
    exact later
  | null | bool _ | num _ | str _ | arr _ => cases read

theorem normalizeTargets_of_for {targets : List RouteTarget}
    (read : normalizeTargetsFor repr parsePortIndex validNodeIds place raw = .ok targets) :
    normalizeTargets repr parsePortIndex place raw = .ok targets := by
  cases raw with
  | null => exact read
  | arr items =>
    refine foldlM_mono ?_ read
    rintro before ⟨item, index⟩ - after step
    obtain ⟨target, isTarget, step⟩ := bind_eq_ok.mp step
    exact bind_eq_ok.mpr ⟨target, normalizeTarget_of_for isTarget, step⟩
  | bool _ | num _ | str _ | obj _ => cases read

theorem normalizeSource_of_for {sourceId : String} {items : List Json} {routes : List OutputRoute}
    (read : normalizeSourceFor repr parsePortIndex validNodeIds sourceId items = .ok routes) :
    normalizeSource repr parsePortIndex sourceId items = .ok routes := by
  refine foldlM_mono ?_ read
  rintro before ⟨item, index⟩ - after step
  cases item with
  | obj fields =>
    simp only at step ⊢
    cases isIndex : parsePortIndex (field fields "output_index") with
    | none =>
      simp only [isIndex] at step
      cases step
    | some outputIndex =>
      simp only [isIndex] at step ⊢
      split_ifs at step ⊢
      obtain ⟨targets, isTargets, step⟩ := bind_eq_ok.mp step
      exact bind_eq_ok.mpr ⟨targets, normalizeTargets_of_for isTargets, step⟩
  | null | bool _ | num _ | str _ | arr _ => cases step

theorem normalizeOutputRoutes_of_for {routes : OutputRoutes}
    (read : normalizeOutputRoutesFor repr parsePortIndex validNodeIds raw = .ok routes) :
    normalizeOutputRoutes repr parsePortIndex raw = .ok routes := by
  cases raw with
  | null => exact read
  | obj fields =>
    refine foldlM_mono ?_ read
    rintro before ⟨rawSourceId, rawItems⟩ - after step
    simp only at step ⊢
    split_ifs at step ⊢
    obtain ⟨-, -, step⟩ := bind_eq_ok.mp step
    split at step
    · obtain ⟨items, isSource, step⟩ := bind_eq_ok.mp step
      exact bind_eq_ok.mpr ⟨items, normalizeSource_of_for isSource, step⟩
    · cases step
  | bool _ | num _ | str _ | arr _ => cases read

end

/-! ### Edges -/

structure RouteEdge where
  source : String
  outputIndex : Nat
  target : RouteTarget
deriving DecidableEq

/-- The edges of a table. -/
def routeEdges (routes : OutputRoutes) : Set RouteEdge :=
  { edge | ∃ items, (edge.source, items) ∈ routes ∧ ∃ route ∈ items,
      route.outputIndex = edge.outputIndex ∧ edge.target ∈ route.targets }

/-- The routes of a table with their sources. -/
def flatRoutes (routes : OutputRoutes) : List (String × OutputRoute) :=
  routes.flatMap fun (sourceId, items) => items.map fun route => (sourceId, route)

/-- The edge is one of the route. -/
def EdgeOf (entry : String × OutputRoute) (edge : RouteEdge) : Prop :=
  entry.1 = edge.source ∧ entry.2.outputIndex = edge.outputIndex ∧ edge.target ∈ entry.2.targets

variable {routes : OutputRoutes}

theorem mem_flatRoutes {entry : String × OutputRoute} :
    entry ∈ flatRoutes routes ↔ ∃ items, (entry.1, items) ∈ routes ∧ entry.2 ∈ items := by
  rw [flatRoutes, List.mem_flatMap]
  constructor
  · rintro ⟨⟨sourceId, items⟩, mem, inItems⟩
    obtain ⟨route, isRoute, rfl⟩ := List.mem_map.mp inItems
    exact ⟨items, mem, isRoute⟩
  · rintro ⟨items, mem, isRoute⟩
    exact ⟨(entry.1, items), mem, List.mem_map.mpr ⟨entry.2, isRoute, rfl⟩⟩

theorem mem_routeEdges {edge : RouteEdge} :
    edge ∈ routeEdges routes ↔ ∃ entry ∈ flatRoutes routes, EdgeOf entry edge := by
  constructor
  · rintro ⟨items, mem, route, inItems, isEdge⟩
    exact ⟨(edge.source, route), mem_flatRoutes.mpr ⟨items, mem, inItems⟩, rfl, isEdge⟩
  · rintro ⟨entry, mem, isSource, isEdge⟩
    obtain ⟨items, inRoutes, isRoute⟩ := mem_flatRoutes.mp mem
    rw [isSource] at inRoutes
    exact ⟨items, inRoutes, entry.2, isRoute, isEdge⟩

theorem flatRoutes_nodup {parsePortIndex : Json → Option Nat}
    (normal : NormalRoutes parsePortIndex routes) :
    ((flatRoutes routes).map fun entry => (entry.1, entry.2.outputIndex)).Nodup := by
  rw [flatRoutes, List.map_flatMap, List.nodup_flatMap]
  constructor
  · intro entry mem
    have distinct := (normal.sources entry mem).nodup
    rw [List.map_map]
    have split : (fun entry : String × OutputRoute => (entry.1, entry.2.outputIndex)) ∘
        (fun route => (entry.1, route)) = (fun index => (entry.1, index)) ∘ OutputRoute.outputIndex := rfl
    rw [split, ← List.map_map]
    exact distinct.map fun left right same => congrArg Prod.snd same
  · have distinct : routes.Pairwise fun left right => left.1 ≠ right.1 := List.pairwise_map.mp normal.nodup
    refine distinct.imp fun {left right} ne => ?_
    intro key inLeft inRight
    simp only [List.map_map, List.mem_map, Function.comp_apply] at inLeft inRight
    obtain ⟨_, -, isLeft⟩ := inLeft
    obtain ⟨_, -, isRight⟩ := inRight
    exact ne (Prod.mk.inj (isLeft.trans isRight.symm)).1

def RouteEdge.Touches (edge : RouteEdge) (nodeIds : List String) : Prop :=
  edge.source ∈ nodeIds ∨ edge.target.nodeId ∈ nodeIds

end AgentPark.Nodes
