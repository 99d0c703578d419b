import Mathlib.Data.List.Sort
import AgentPark.Nodes.Routes

/-!
# Routes of private nodes

Users without owner access load a route table without the edges of private nodes, and save one that is
merged with the edges they cannot see.

A node whose configuration cannot be read makes a request fail; such requests change nothing and are
left out.
-/

namespace AgentPark.Nodes

open Lib

/-! ### Loading and saving -/

section
variable (repr : Json → String) (parsePortIndex : Json → Option Nat)

/-- The routes of a source without the private targets. -/
def hideTargets (privateIds : List String) (sourceRoutes : List OutputRoute) : List OutputRoute :=
  sourceRoutes.map fun route =>
    { route with targets := route.targets.filter fun target => target.nodeId ∉ privateIds }

/-- The loop of `filter_output_routes_for_request`. -/
def hideRoutes (privateIds : List String) (routes : OutputRoutes) : OutputRoutes :=
  routes.filterMap fun (sourceId, sourceRoutes) =>
    if sourceId ∈ privateIds then none
    else if hideTargets privateIds sourceRoutes = [] then none
    else some (sourceId, hideTargets privateIds sourceRoutes)

/-- `filter_output_routes_for_request` -/
def filterOutputRoutesForRequest (owner : Bool) (privateIds : List String) (outputRoutes : Json) :
    Except Failure OutputRoutes := do
  let routes ← normalizeOutputRoutes repr parsePortIndex outputRoutes
  if owner = true ∨ privateIds = [] then return routes
  else normalizeOutputRoutes repr parsePortIndex (routesJson (hideRoutes privateIds routes))

/-- The targets of the outputs of the sources. -/
abbrev MergedRoutes := List (String × List (Nat × List RouteTarget))

def setMerged (merged : MergedRoutes) (sourceId : String) (outputIndex : Nat) (targets : List RouteTarget) :
    MergedRoutes :=
  dictSet merged sourceId (dictSet ((merged.lookup sourceId).getD []) outputIndex targets)

def targetsAt (merged : MergedRoutes) (sourceId : String) (outputIndex : Nat) : Option (List RouteTarget) :=
  (merged.lookup sourceId).bind fun outputs => outputs.lookup outputIndex

/-- Targets that are not there yet are put behind the others. -/
def addTargets (targets new : List RouteTarget) : List RouteTarget :=
  new.foldl (fun targets target => if target ∈ targets then targets else targets ++ [target]) targets

/-- The first loop of `merge_remote_output_routes`. -/
def mergeIncoming (privateIds : List String) (incoming : OutputRoutes) : MergedRoutes :=
  incoming.foldl (fun merged (sourceId, sourceRoutes) =>
    if sourceId ∈ privateIds then merged
    else sourceRoutes.foldl (fun merged route => setMerged merged sourceId route.outputIndex
      (route.targets.filter fun target => target.nodeId ∉ privateIds)) merged) []

/-- The second loop of `merge_remote_output_routes`. -/
def keepStored (privateIds : List String) (stored : OutputRoutes) (merged : MergedRoutes) : MergedRoutes :=
  stored.foldl (fun merged (sourceId, sourceRoutes) =>
    if sourceId ∈ privateIds then
      sourceRoutes.foldl (fun merged route => setMerged merged sourceId route.outputIndex route.targets) merged
    else
      sourceRoutes.foldl (fun merged route =>
        let privateTargets := route.targets.filter fun target => target.nodeId ∈ privateIds
        if privateTargets = [] then merged
        else setMerged merged sourceId route.outputIndex
          (addTargets ((targetsAt merged sourceId route.outputIndex).getD []) privateTargets)) merged) merged

/-- `[routes[index] for index in sorted(routes)]` for the sources that have any. -/
def mergedPayload (merged : MergedRoutes) : OutputRoutes :=
  merged.filterMap fun (sourceId, outputs) =>
    if outputs = [] then none
    else some (sourceId, (outputs.insertionSort fun left right => left.1 ≤ right.1).map
      fun (outputIndex, targets) => { outputIndex, targets })

/-- `merge_remote_output_routes` -/
def mergeRemoteOutputRoutes (owner : Bool) (privateIds : List String) (incomingRoutes storedRoutes : Json) :
    Except Failure OutputRoutes := do
  let incoming ← normalizeOutputRoutes repr parsePortIndex incomingRoutes
  if owner = true ∨ privateIds = [] then return incoming
  else
    let stored ← normalizeOutputRoutes repr parsePortIndex storedRoutes
    normalizeOutputRoutes repr parsePortIndex
      (routesJson (mergedPayload (keepStored privateIds stored (mergeIncoming privateIds incoming))))

/-- The route table of a graph as it is stored, and the nodes of the graph with their privacy. -/
structure RouteStore where
  outputRoutes : Json
  nodes : List (String × Bool)

def RouteStore.privateNodeIds (store : RouteStore) : List String :=
  (store.nodes.filter fun entry => entry.1 ≠ "agents" ∧ entry.2 = true).map Prod.fst

/-- `get_graph` for a user without owner access: the store behind it and what the user gets.  `changed`
tells that the configuration is not as it would be stored. -/
def RouteStore.getGraph (validNodeIds : Option (List String)) (changed : Bool) (store : RouteStore) :
    RouteStore × Except Failure OutputRoutes :=
  match normalizeOutputRoutesFor repr parsePortIndex validNodeIds store.outputRoutes with
  | .error error => (store, .error error)
  | .ok cleaned =>
    (if changed then { store with outputRoutes := routesJson cleaned } else store,
      filterOutputRoutesForRequest repr parsePortIndex false store.privateNodeIds (routesJson cleaned))

/-- `save_graph` for a user without owner access. -/
def RouteStore.saveGraph (validNodeIds : Option (List String)) (incoming : Json) (store : RouteStore) :
    Except Failure RouteStore := do
  let merged ← mergeRemoteOutputRoutes repr parsePortIndex false store.privateNodeIds incoming
    store.outputRoutes
  let cleaned ← normalizeOutputRoutesFor repr parsePortIndex validNodeIds (routesJson merged)
  return { store with outputRoutes := routesJson cleaned }

/-- `set_node_visibility`. -/
def RouteStore.setNodeVisibility (nodeId : String) (isPrivate : Bool) (store : RouteStore) : RouteStore :=
  if nodeId ∈ store.nodes.map Prod.fst then { store with nodes := dictSet store.nodes nodeId isPrivate }
  else store

/-- What owners and other users ask for.  A request that raises changes nothing. -/
inductive RouteRequest where
  | setVisibility (nodeId : String) (isPrivate : Bool)
  | load (validNodeIds : Option (List String)) (changed : Bool)
  | save (validNodeIds : Option (List String)) (incoming : Json)

/-- One request after the other. -/
def RouteStore.handle (store : RouteStore) : RouteRequest → RouteStore
  | .setVisibility nodeId isPrivate => store.setNodeVisibility nodeId isPrivate
  | .load validNodeIds changed => (store.getGraph repr parsePortIndex validNodeIds changed).1
  | .save validNodeIds incoming =>
    match store.saveGraph repr parsePortIndex validNodeIds incoming with
    | .ok after => after
    | .error _ => store

def RouteStore.changeVisibility (store : RouteStore) (changes : List (String × Bool)) : RouteStore :=
  changes.foldl (fun store change => store.setNodeVisibility change.1 change.2) store

/-- The edges of the stored table. -/
def RouteStore.edges (store : RouteStore) : Set RouteEdge :=
  match normalizeOutputRoutes repr parsePortIndex store.outputRoutes with
  | .ok routes => routeEdges routes
  | .error _ => ∅

/-- The edges that are saved of the incoming ones, and those that are kept. -/
def mergedEdges (privateIds : List String) (incoming stored : Set RouteEdge) : Set RouteEdge :=
  { edge | edge ∈ incoming ∧ ¬ edge.Touches privateIds ∨ edge ∈ stored ∧ edge.Touches privateIds }

/-- What users without owner access see and change in a store, with changes of the visibility between a
load and the save of what was loaded. -/
structure RouteStore.KeepsPrivateRoutes (store : RouteStore) (changes : List (String × Bool)) : Prop where
  hidden : ∀ other otherRoutes, normalizeOutputRoutes repr parsePortIndex other = .ok otherRoutes →
    (∀ edge, ¬ edge.Touches store.privateNodeIds →
      (edge ∈ store.edges repr parsePortIndex ↔ edge ∈ routeEdges otherRoutes)) →
    ∃ shown otherShown,
      filterOutputRoutesForRequest repr parsePortIndex false store.privateNodeIds store.outputRoutes =
        .ok shown ∧
      filterOutputRoutesForRequest repr parsePortIndex false store.privateNodeIds other = .ok otherShown ∧
      routeEdges shown = routeEdges otherShown
  merged : ∀ incoming merged, mergeRemoteOutputRoutes repr parsePortIndex false store.privateNodeIds
      incoming store.outputRoutes = .ok merged →
    ∃ routes, normalizeOutputRoutes repr parsePortIndex incoming = .ok routes ∧
      routeEdges merged =
        mergedEdges store.privateNodeIds (routeEdges routes) (store.edges repr parsePortIndex)
  saved : ∀ validNodeIds incoming after,
    store.saveGraph repr parsePortIndex validNodeIds incoming = .ok after →
      ∃ routes, normalizeOutputRoutes repr parsePortIndex incoming = .ok routes ∧
        after.edges repr parsePortIndex =
          mergedEdges store.privateNodeIds (routeEdges routes) (store.edges repr parsePortIndex)
  savedBack : ∃ shown merged,
    filterOutputRoutesForRequest repr parsePortIndex false store.privateNodeIds store.outputRoutes =
      .ok shown ∧
    mergeRemoteOutputRoutes repr parsePortIndex false (store.changeVisibility changes).privateNodeIds
      (routesJson shown) (store.changeVisibility changes).outputRoutes = .ok merged ∧
    routeEdges merged = store.edges repr parsePortIndex

end

/-! ### Hiding -/

section
variable {repr : Json → String} {parsePortIndex : Json → Option Nat} {privateIds : List String}
variable {routes : OutputRoutes} {edge : RouteEdge}

theorem hideTargets_normal {sourceRoutes : List OutputRoute}
    (normal : NormalSource parsePortIndex sourceRoutes) :
    NormalSource parsePortIndex (hideTargets privateIds sourceRoutes) := by
  constructor
  · rw [hideTargets, List.map_map]
    exact normal.nodup
  · intro route mem
    obtain ⟨old, inOld, rfl⟩ := List.mem_map.mp mem
    obtain ⟨index, nodup, targets⟩ := normal.routes old inOld
    exact ⟨index, nodup.filter _, fun target inTargets => targets target (List.mem_of_mem_filter inTargets)⟩

theorem mem_hideRoutes {entry : String × List OutputRoute} : entry ∈ hideRoutes privateIds routes ↔
    ∃ sourceRoutes, (entry.1, sourceRoutes) ∈ routes ∧ entry.1 ∉ privateIds ∧
      hideTargets privateIds sourceRoutes ≠ [] ∧ entry.2 = hideTargets privateIds sourceRoutes := by
  rw [hideRoutes, List.mem_filterMap]
  constructor
  · rintro ⟨⟨sourceId, sourceRoutes⟩, mem, isEntry⟩
    dsimp only at isEntry
    split_ifs at isEntry with hidden none
    cases isEntry
    exact ⟨sourceRoutes, mem, hidden, none, rfl⟩
  · rintro ⟨sourceRoutes, mem, shown, used, isItems⟩
    refine ⟨(entry.1, sourceRoutes), mem, ?_⟩
    dsimp only
    rw [if_neg shown, if_neg used, ← isItems]

theorem hideRoutes_normal (normal : NormalRoutes parsePortIndex routes) :
    NormalRoutes parsePortIndex (hideRoutes privateIds routes) := by
  refine ⟨(keys_filterMap_sublist ?_ routes).nodup normal.nodup, ?_, ?_, ?_, ?_⟩
  · rintro ⟨sourceId, sourceRoutes⟩ new isNew
    dsimp only at isNew
    split_ifs at isNew
    cases isNew
    rfl
  all_goals
    intro entry mem
    obtain ⟨sourceRoutes, inRoutes, -, used, isItems⟩ := mem_hideRoutes.mp mem
  · exact normal.trimmed (entry.1, sourceRoutes) inRoutes
  · exact normal.named (entry.1, sourceRoutes) inRoutes
  · rw [isItems]
    exact used
  · rw [isItems]
    exact hideTargets_normal (normal.sources _ inRoutes)

theorem mem_routeEdges_hideRoutes :
    edge ∈ routeEdges (hideRoutes privateIds routes) ↔ edge ∈ routeEdges routes ∧ ¬ edge.Touches privateIds := by
  rw [RouteEdge.Touches, not_or]
  constructor
  · rintro ⟨items, mem, route, inItems, isIndex, isTarget⟩
    obtain ⟨sourceRoutes, inRoutes, shown, -, isItems⟩ := mem_hideRoutes.mp mem
    dsimp only at isItems
    rw [isItems] at inItems
    obtain ⟨old, inOld, rfl⟩ := List.mem_map.mp inItems
    obtain ⟨inTargets, isPublic⟩ := List.mem_filter.mp isTarget
    exact ⟨⟨sourceRoutes, inRoutes, old, inOld, isIndex, inTargets⟩, shown, of_decide_eq_true isPublic⟩
  · rintro ⟨⟨sourceRoutes, inRoutes, old, inOld, isIndex, isTarget⟩, shown, isPublic⟩
    have inHidden := List.mem_map_of_mem (f := fun route : OutputRoute =>
      { route with targets := route.targets.filter fun target => target.nodeId ∉ privateIds }) inOld
    refine ⟨hideTargets privateIds sourceRoutes,
      mem_hideRoutes.mpr ⟨sourceRoutes, inRoutes, shown, List.ne_nil_of_mem inHidden, rfl⟩, _, inHidden, isIndex, ?_⟩
    exact List.mem_filter.mpr ⟨isTarget, decide_eq_true isPublic⟩

theorem not_touches_nil : ¬ edge.Touches [] := by simp [RouteEdge.Touches]

variable (privateIds) in
/-- The edges a request is shown. -/
theorem routeEdges_filterOutputRoutes (stable : StableIndex parsePortIndex) {raw : Json}
    (read : normalizeOutputRoutes repr parsePortIndex raw = .ok routes) :
    ∃ shown, filterOutputRoutesForRequest repr parsePortIndex false privateIds raw = .ok shown ∧
      NormalRoutes parsePortIndex shown ∧
        ∀ edge, edge ∈ routeEdges shown ↔ edge ∈ routeEdges routes ∧ ¬ edge.Touches privateIds := by
  have normal := normalizeOutputRoutes_normal stable read
  unfold filterOutputRoutesForRequest
  rw [read]
  by_cases open_ : privateIds = []
  · refine ⟨routes, ?_, normal, fun edge => ?_⟩
    · subst open_
      rfl
    · rw [open_, and_iff_left not_touches_nil]
  · refine ⟨hideRoutes privateIds routes, ?_, hideRoutes_normal normal, fun edge => mem_routeEdges_hideRoutes⟩
    change (if false = true ∨ privateIds = [] then _ else _) = _
    rw [if_neg (by simp [open_])]
    exact normalizeOutputRoutes_json (hideRoutes_normal normal)

end

/-! ### The merged table -/

section
variable {parsePortIndex : Json → Option Nat} {privateIds : List String} {merged : MergedRoutes}
variable {entry : String × OutputRoute} {edge : RouteEdge}

/-- The edge is one of the merged table. -/
def MergedEdge (merged : MergedRoutes) (edge : RouteEdge) : Prop :=
  ∃ targets, targetsAt merged edge.source edge.outputIndex = some targets ∧ edge.target ∈ targets

theorem targetsAt_setMerged (merged : MergedRoutes) (sourceId source : String) (outputIndex index : Nat)
    (targets : List RouteTarget) : targetsAt (setMerged merged sourceId outputIndex targets) source index =
      if source = sourceId ∧ index = outputIndex then some targets else targetsAt merged source index := by
  rw [targetsAt, setMerged, lookup_dictSet]
  by_cases sameSource : source = sourceId
  · subst sameSource
    rw [if_pos rfl, Option.bind_some, lookup_dictSet]
    by_cases sameIndex : index = outputIndex
    · rw [if_pos sameIndex, if_pos ⟨rfl, sameIndex⟩]
    · rw [if_neg sameIndex, if_neg fun both => sameIndex both.2, targetsAt]
      cases merged.lookup source with
      | none => rfl
      | some outputs => rfl
  · rw [if_neg sameSource, if_neg fun both => sameSource both.1, targetsAt]

theorem mergedEdge_setMerged {sourceId : String} {outputIndex : Nat} {targets : List RouteTarget} :
    MergedEdge (setMerged merged sourceId outputIndex targets) edge ↔
      if edge.source = sourceId ∧ edge.outputIndex = outputIndex then edge.target ∈ targets
      else MergedEdge merged edge := by
  rw [MergedEdge, targetsAt_setMerged]
  split_ifs with here
  · simp
  · rfl

theorem mem_addTargets {targets new : List RouteTarget} {target : RouteTarget} :
    target ∈ addTargets targets new ↔ target ∈ targets ∨ target ∈ new := by
  induction new generalizing targets with
  | nil => simp [addTargets]
  | cons first new ih =>
    rw [addTargets, List.foldl_cons, ← addTargets, ih, List.mem_cons]
    split_ifs with old
    · constructor
      · exact fun either => either.imp_right .inr
      · rintro (inTargets | rfl | inNew)
        · exact .inl inTargets
        · exact .inl old
        · exact .inr inNew
    · rw [List.mem_append, List.mem_singleton, or_assoc]

theorem addTargets_nodup {targets new : List RouteTarget} (nodup : targets.Nodup) :
    (addTargets targets new).Nodup := by
  induction new generalizing targets with
  | nil => exact nodup
  | cons first new ih =>
    rw [addTargets, List.foldl_cons, ← addTargets]
    split_ifs with old
    · exact ih nodup
    · refine ih (List.nodup_append.mpr ⟨nodup, List.nodup_singleton first, ?_⟩)
      rintro target inTargets other isFirst rfl
      rw [List.mem_singleton.mp isFirst] at inTargets
      exact old inTargets

/-! ### One route -/

/-- A turn of the first loop. -/
def incomingStep (privateIds : List String) (merged : MergedRoutes) (entry : String × OutputRoute) :
    MergedRoutes :=
  if entry.1 ∈ privateIds then merged
  else setMerged merged entry.1 entry.2.outputIndex
    (entry.2.targets.filter fun target => target.nodeId ∉ privateIds)

/-- A turn of the second loop. -/
def storedStep (privateIds : List String) (merged : MergedRoutes) (entry : String × OutputRoute) :
    MergedRoutes :=
  if entry.1 ∈ privateIds then setMerged merged entry.1 entry.2.outputIndex entry.2.targets
  else
    let privateTargets := entry.2.targets.filter fun target => target.nodeId ∈ privateIds
    if privateTargets = [] then merged
    else setMerged merged entry.1 entry.2.outputIndex
      (addTargets ((targetsAt merged entry.1 entry.2.outputIndex).getD []) privateTargets)

theorem mergeIncoming_eq (privateIds : List String) (incoming : OutputRoutes) :
    mergeIncoming privateIds incoming = (flatRoutes incoming).foldl (incomingStep privateIds) [] := by
  rw [mergeIncoming, flatRoutes, List.foldl_flatMap]
  congr 1
  funext merged entry
  obtain ⟨sourceId, sourceRoutes⟩ := entry
  dsimp only
  rw [List.foldl_map]
  unfold incomingStep
  split_ifs
  · exact (List.foldl_fixed _).symm
  · rfl

theorem keepStored_eq (privateIds : List String) (stored : OutputRoutes) (merged : MergedRoutes) :
    keepStored privateIds stored merged = (flatRoutes stored).foldl (storedStep privateIds) merged := by
  rw [keepStored, flatRoutes, List.foldl_flatMap]
  congr 1
  funext merged entry
  obtain ⟨sourceId, sourceRoutes⟩ := entry
  dsimp only
  rw [List.foldl_map]
  unfold storedStep
  split_ifs
  · rfl
  · rfl

theorem edgeOf_iff : EdgeOf entry edge ↔
    (edge.source = entry.1 ∧ edge.outputIndex = entry.2.outputIndex) ∧ edge.target ∈ entry.2.targets := by
  rw [EdgeOf, and_assoc, eq_comm, @eq_comm _ entry.2.outputIndex]

theorem mergedEdge_incomingStep (free : targetsAt merged entry.1 entry.2.outputIndex = none) :
    MergedEdge (incomingStep privateIds merged entry) edge ↔
      MergedEdge merged edge ∨ EdgeOf entry edge ∧ ¬ edge.Touches privateIds := by
  rw [edgeOf_iff, RouteEdge.Touches]
  unfold incomingStep
  by_cases hidden : entry.1 ∈ privateIds
  · rw [if_pos hidden]
    refine (or_iff_left ?_).symm
    rintro ⟨⟨⟨isSource, -⟩, -⟩, apart⟩
    rw [isSource] at apart
    exact apart (.inl hidden)
  · rw [if_neg hidden, mergedEdge_setMerged]
    by_cases here : edge.source = entry.1 ∧ edge.outputIndex = entry.2.outputIndex
    · have absent : ¬ MergedEdge merged edge := by
        rintro ⟨targets, found, -⟩
        rw [here.1, here.2, free] at found
        cases found
      rw [if_pos here, or_iff_right absent, List.mem_filter, here.1]
      simp [here, hidden]
    · rw [if_neg here]
      exact (or_iff_left fun new => here new.1.1).symm

theorem mergedEdge_storedStep
    (free : entry.1 ∈ privateIds → targetsAt merged entry.1 entry.2.outputIndex = none) :
    MergedEdge (storedStep privateIds merged entry) edge ↔
      MergedEdge merged edge ∨ EdgeOf entry edge ∧ edge.Touches privateIds := by
  rw [edgeOf_iff, RouteEdge.Touches]
  unfold storedStep
  by_cases hidden : entry.1 ∈ privateIds
  · rw [if_pos hidden, mergedEdge_setMerged]
    by_cases here : edge.source = entry.1 ∧ edge.outputIndex = entry.2.outputIndex
    · have absent : ¬ MergedEdge merged edge := by
        rintro ⟨targets, found, -⟩
        rw [here.1, here.2, free hidden] at found
        cases found
      rw [if_pos here, or_iff_right absent, here.1]
      simp [here, hidden]
    · rw [if_neg here]
      exact (or_iff_left fun old => here old.1.1).symm
  · rw [if_neg hidden]
    dsimp only
    have isPrivate : (edge.source = entry.1 ∧ edge.outputIndex = entry.2.outputIndex) ∧
          edge.target ∈ entry.2.targets ∧ (edge.source ∈ privateIds ∨ edge.target.nodeId ∈ privateIds) ↔
        (edge.source = entry.1 ∧ edge.outputIndex = entry.2.outputIndex) ∧
          edge.target ∈ entry.2.targets.filter fun target => target.nodeId ∈ privateIds := by
      refine and_congr_right fun here => ?_
      rw [List.mem_filter, here.1, or_iff_right hidden, decide_eq_true_eq]
    rw [and_assoc, isPrivate]
    by_cases none : (entry.2.targets.filter fun target => target.nodeId ∈ privateIds) = []
    · rw [if_pos none, none]
      exact (or_iff_left fun old => List.not_mem_nil old.2).symm
    · rw [if_neg none, mergedEdge_setMerged]
      by_cases here : edge.source = entry.1 ∧ edge.outputIndex = entry.2.outputIndex
      · rw [if_pos here, mem_addTargets, and_iff_right here, MergedEdge, here.1, here.2]
        refine or_congr_left ?_
        cases targetsAt merged entry.1 entry.2.outputIndex with
        | none => simp
        | some targets => simp
      · rw [if_neg here]
        exact (or_iff_left fun old => here old.1).symm

/-! ### All routes -/

theorem mergedEdge_foldl (free : MergedRoutes → String × OutputRoute → Prop) (brings : RouteEdge → Prop)
    {step : MergedRoutes → String × OutputRoute → MergedRoutes}
    (adds : ∀ merged entry edge, free merged entry → (MergedEdge (step merged entry) edge ↔
      MergedEdge merged edge ∨ EdgeOf entry edge ∧ brings edge))
    (apart : ∀ merged entry other, (entry.1, entry.2.outputIndex) ≠ (other.1, other.2.outputIndex) →
      free merged other → free (step merged entry) other)
    {entries : List (String × OutputRoute)}
    (nodup : (entries.map fun entry => (entry.1, entry.2.outputIndex)).Nodup)
    (isFree : ∀ entry ∈ entries, free merged entry) :
    MergedEdge (entries.foldl step merged) edge ↔
      MergedEdge merged edge ∨ (∃ entry ∈ entries, EdgeOf entry edge) ∧ brings edge := by
  induction entries generalizing merged with
  | nil => simp
  | cons entry entries ih =>
    rw [List.map_cons, List.nodup_cons] at nodup
    obtain ⟨first, later⟩ := List.forall_mem_cons.mp isFree
    have stillFree : ∀ other ∈ entries, free (step merged entry) other := by
      intro other mem
      refine apart merged entry other ?_ (later other mem)
      intro same
      exact nodup.1 (same ▸ List.mem_map_of_mem (f := fun entry : String × OutputRoute =>
        (entry.1, entry.2.outputIndex)) mem)
    rw [List.foldl_cons, ih nodup.2 stillFree, adds merged entry edge first]
    simp only [List.mem_cons, exists_eq_or_imp]
    tauto

theorem mergedEdge_mergeIncoming {incoming : OutputRoutes} (normal : NormalRoutes parsePortIndex incoming) :
    MergedEdge (mergeIncoming privateIds incoming) edge ↔
      edge ∈ routeEdges incoming ∧ ¬ edge.Touches privateIds := by
  have absent : ¬ MergedEdge [] edge := by
    rintro ⟨targets, found, -⟩
    cases found
  rw [mergeIncoming_eq, mergedEdge_foldl (fun merged entry =>
    targetsAt merged entry.1 entry.2.outputIndex = none) (fun edge => ¬ edge.Touches privateIds) (fun _ _ _ => mergedEdge_incomingStep) ?_ (flatRoutes_nodup normal) (fun _ _ => rfl), or_iff_right absent,
    mem_routeEdges]
  intro merged entry other ne isFree
  unfold incomingStep
  split_ifs
  · exact isFree
  · rw [targetsAt_setMerged, if_neg, isFree]
    rintro ⟨sameSource, sameIndex⟩
    rw [sameSource, sameIndex] at ne
    exact ne rfl

theorem targetsAt_mergeIncoming (incoming : OutputRoutes) {sourceId : String} (hidden : sourceId ∈ privateIds)
    (index : Nat) : targetsAt (mergeIncoming privateIds incoming) sourceId index = none := by
  have kept : ∀ (entries : List (String × OutputRoute)) merged, targetsAt merged sourceId index = none →
      targetsAt (entries.foldl (incomingStep privateIds) merged) sourceId index = none := by
    intro entries
    induction entries with
    | nil => exact fun _ absent => absent
    | cons entry entries ih =>
      intro merged absent
      refine ih _ ?_
      unfold incomingStep
      split_ifs with isHidden
      · exact absent
      · rw [targetsAt_setMerged, if_neg, absent]
        rintro ⟨same, -⟩
        rw [same] at hidden
        exact isHidden hidden
  rw [mergeIncoming_eq]
  exact kept _ [] rfl

theorem mergedEdge_keepStored {stored : OutputRoutes} (normal : NormalRoutes parsePortIndex stored)
    (free : ∀ sourceId ∈ privateIds, ∀ index, targetsAt merged sourceId index = none) :
    MergedEdge (keepStored privateIds stored merged) edge ↔
      MergedEdge merged edge ∨ edge ∈ routeEdges stored ∧ edge.Touches privateIds := by
  rw [keepStored_eq, mergedEdge_foldl (fun merged entry => entry.1 ∈ privateIds →
    targetsAt merged entry.1 entry.2.outputIndex = none) (fun edge => edge.Touches privateIds)
    (fun _ _ _ => mergedEdge_storedStep) ?_ (flatRoutes_nodup normal)
    (fun entry _ hidden => free entry.1 hidden entry.2.outputIndex), mem_routeEdges]
  intro merged entry other ne isFree hidden
  have notHere : ¬ (other.1 = entry.1 ∧ other.2.outputIndex = entry.2.outputIndex) := by
    rintro ⟨sameSource, sameIndex⟩
    rw [sameSource, sameIndex] at ne
    exact ne rfl
  unfold storedStep
  split_ifs
  · rw [targetsAt_setMerged, if_neg notHere, isFree hidden]
  · dsimp only
    split_ifs
    · exact isFree hidden
    · rw [targetsAt_setMerged, if_neg notHere, isFree hidden]

/-! ### The merged table is normal -/

structure NormalOutputs (parsePortIndex : Json → Option Nat) (outputs : List (Nat × List RouteTarget)) :
    Prop where
  nodup : (outputs.map Prod.fst).Nodup
  routes : ∀ output ∈ outputs, NormalRoute parsePortIndex { outputIndex := output.1, targets := output.2 }

structure NormalMerged (parsePortIndex : Json → Option Nat) (merged : MergedRoutes) : Prop where
  nodup : (merged.map Prod.fst).Nodup
  names : ∀ sourceId ∈ merged.map Prod.fst, pyStrip sourceId = sourceId ∧ sourceId ≠ ""
  outputs : ∀ entry ∈ merged, NormalOutputs parsePortIndex entry.2

theorem NormalOutputs.set {outputs : List (Nat × List RouteTarget)} {route : OutputRoute}
    (normal : NormalOutputs parsePortIndex outputs) (isRoute : NormalRoute parsePortIndex route) :
    NormalOutputs parsePortIndex (dictSet outputs route.outputIndex route.targets) := by
  refine ⟨nodup_dictSet normal.nodup _ _, fun output mem => ?_⟩
  unfold dictSet at mem
  split_ifs at mem
  · obtain ⟨old, inOutputs, rfl⟩ := List.mem_map.mp mem
    split_ifs
    · exact isRoute
    · exact normal.routes old inOutputs
  · rcases List.mem_append.mp mem with old | new
    · exact normal.routes output old
    · rw [List.mem_singleton.mp new]
      exact isRoute

theorem NormalMerged.outputsAt (normal : NormalMerged parsePortIndex merged) (sourceId : String) :
    NormalOutputs parsePortIndex ((merged.lookup sourceId).getD []) := by
  cases found : merged.lookup sourceId with
  | none => exact ⟨List.nodup_nil, fun _ mem => (by cases mem)⟩
  | some outputs => exact normal.outputs _ (mem_of_lookup found)

theorem NormalMerged.set (normal : NormalMerged parsePortIndex merged) {sourceId : String} {route : OutputRoute}
    (named : pyStrip sourceId = sourceId ∧ sourceId ≠ "") (isRoute : NormalRoute parsePortIndex route) :
    NormalMerged parsePortIndex (setMerged merged sourceId route.outputIndex route.targets) := by
  refine ⟨nodup_dictSet normal.nodup _ _, fun key mem => ?_,
    forall_mem_dictSet normal.outputs _ ((normal.outputsAt sourceId).set isRoute)⟩
  rw [setMerged, keys_dictSet] at mem
  split_ifs at mem
  · exact normal.names key mem
  · rcases List.mem_append.mp mem with old | new
    · exact normal.names key old
    · rw [List.mem_singleton.mp new]
      exact named

theorem NormalMerged.targetsAt_nodup (normal : NormalMerged parsePortIndex merged) (sourceId : String)
    (index : Nat) : ((targetsAt merged sourceId index).getD []).Nodup ∧
      ∀ target ∈ (targetsAt merged sourceId index).getD [], NormalTarget parsePortIndex target := by
  cases found : targetsAt merged sourceId index with
  | none => exact ⟨List.nodup_nil, fun _ mem => (by cases mem)⟩
  | some targets =>
    obtain ⟨outputs, isOutputs, isTargets⟩ := Option.bind_eq_some_iff.mp found
    have isRoute := (normal.outputs _ (mem_of_lookup isOutputs)).routes _ (mem_of_lookup isTargets)
    exact ⟨isRoute.nodup, isRoute.targets⟩

theorem incomingStep_normal (normal : NormalMerged parsePortIndex merged)
    (named : pyStrip entry.1 = entry.1 ∧ entry.1 ≠ "") (isRoute : NormalRoute parsePortIndex entry.2) :
    NormalMerged parsePortIndex (incomingStep privateIds merged entry) := by
  unfold incomingStep
  split_ifs
  · exact normal
  · have shown : NormalRoute parsePortIndex { entry.2 with
        targets := entry.2.targets.filter fun target => target.nodeId ∉ privateIds } :=
      ⟨isRoute.index, isRoute.nodup.filter _, fun target mem => isRoute.targets target (List.mem_of_mem_filter mem)⟩
    exact normal.set named shown

theorem storedStep_normal (normal : NormalMerged parsePortIndex merged)
    (named : pyStrip entry.1 = entry.1 ∧ entry.1 ≠ "") (isRoute : NormalRoute parsePortIndex entry.2) :
    NormalMerged parsePortIndex (storedStep privateIds merged entry) := by
  unfold storedStep
  split_ifs
  · exact normal.set named isRoute
  · dsimp only
    split_ifs
    · exact normal
    · obtain ⟨nodup, targets⟩ := normal.targetsAt_nodup entry.1 entry.2.outputIndex
      have kept : NormalRoute parsePortIndex { entry.2 with
          targets := addTargets ((targetsAt merged entry.1 entry.2.outputIndex).getD [])
            (entry.2.targets.filter fun target => target.nodeId ∈ privateIds) } := by
        refine ⟨isRoute.index, addTargets_nodup nodup, fun target mem => ?_⟩
        rcases mem_addTargets.mp mem with old | new
        · exact targets target old
        · exact isRoute.targets target (List.mem_of_mem_filter new)
      exact normal.set named kept

theorem foldl_normal {step : MergedRoutes → String × OutputRoute → MergedRoutes} {routes : OutputRoutes}
    (keeps : ∀ merged entry, NormalMerged parsePortIndex merged → pyStrip entry.1 = entry.1 ∧ entry.1 ≠ "" →
      NormalRoute parsePortIndex entry.2 → NormalMerged parsePortIndex (step merged entry))
    (isNormal : NormalRoutes parsePortIndex routes) (normal : NormalMerged parsePortIndex merged) :
    NormalMerged parsePortIndex ((flatRoutes routes).foldl step merged) := by
  refine List.foldlRecOn _ step normal fun merged normal entry mem => ?_
  obtain ⟨items, inRoutes, inItems⟩ := mem_flatRoutes.mp mem
  exact keeps merged entry normal
    ⟨isNormal.trimmed (entry.1, items) inRoutes, isNormal.named (entry.1, items) inRoutes⟩
    ((isNormal.sources (entry.1, items) inRoutes).routes entry.2 inItems)

theorem mem_mergedPayload {source : String × List OutputRoute} : source ∈ mergedPayload merged ↔
    ∃ outputs, (source.1, outputs) ∈ merged ∧ outputs ≠ [] ∧
      source.2 = (outputs.insertionSort fun left right => left.1 ≤ right.1).map
        fun (outputIndex, targets) => { outputIndex, targets } := by
  rw [mergedPayload, List.mem_filterMap]
  constructor
  · rintro ⟨⟨sourceId, outputs⟩, mem, isSource⟩
    dsimp only at isSource
    split_ifs at isSource with none
    cases isSource
    exact ⟨outputs, mem, none, rfl⟩
  · rintro ⟨outputs, mem, used, isRoutes⟩
    refine ⟨(source.1, outputs), mem, ?_⟩
    dsimp only
    rw [if_neg used, ← isRoutes]

theorem mergedPayload_normal (normal : NormalMerged parsePortIndex merged) :
    NormalRoutes parsePortIndex (mergedPayload merged) := by
  refine ⟨(keys_filterMap_sublist ?_ merged).nodup normal.nodup, ?_, ?_, ?_, ?_⟩
  · rintro ⟨sourceId, outputs⟩ new isNew
    dsimp only at isNew
    split_ifs at isNew
    cases isNew
    rfl
  all_goals
    intro source mem
    obtain ⟨outputs, inMerged, used, isRoutes⟩ := mem_mergedPayload.mp mem
  · exact (normal.names source.1 (List.mem_map_of_mem inMerged)).1
  · exact (normal.names source.1 (List.mem_map_of_mem inMerged)).2
  · rw [isRoutes]
    intro none
    rw [List.map_eq_nil_iff, ← List.length_eq_zero_iff, List.length_insertionSort, List.length_eq_zero_iff] at none
    exact used none
  · have sorted := List.perm_insertionSort (fun left right : Nat × List RouteTarget => left.1 ≤ right.1) outputs
    have isNormal := normal.outputs _ inMerged
    rw [isRoutes]
    constructor
    · rw [List.map_map]
      exact (sorted.map Prod.fst).nodup_iff.mpr isNormal.nodup
    · intro route isRoute
      obtain ⟨output, inSorted, rfl⟩ := List.mem_map.mp isRoute
      exact isNormal.routes output (sorted.mem_iff.mp inSorted)

theorem routeEdges_mergedPayload (normal : NormalMerged parsePortIndex merged) :
    edge ∈ routeEdges (mergedPayload merged) ↔ MergedEdge merged edge := by
  constructor
  · rintro ⟨items, mem, route, inItems, isIndex, isTarget⟩
    obtain ⟨outputs, inMerged, -, isRoutes⟩ := mem_mergedPayload.mp mem
    dsimp only at isRoutes
    rw [isRoutes] at inItems
    obtain ⟨⟨index, targets⟩, inSorted, rfl⟩ := List.mem_map.mp inItems
    have inOutputs := (List.perm_insertionSort _ outputs).mem_iff.mp inSorted
    refine ⟨targets, ?_, isTarget⟩
    rw [targetsAt, lookup_of_mem normal.nodup inMerged, Option.bind_some, ← isIndex]
    exact lookup_of_mem (normal.outputs _ inMerged).nodup inOutputs
  · rintro ⟨targets, found, isTarget⟩
    obtain ⟨outputs, isOutputs, isTargets⟩ := Option.bind_eq_some_iff.mp found
    have inOutputs := mem_of_lookup isTargets
    refine ⟨_, mem_mergedPayload.mpr ⟨outputs, mem_of_lookup isOutputs, List.ne_nil_of_mem inOutputs, rfl⟩,
      { outputIndex := edge.outputIndex, targets }, ?_, rfl, isTarget⟩
    exact List.mem_map.mpr ⟨_, (List.perm_insertionSort _ outputs).mem_iff.mpr inOutputs, rfl⟩

end

/-! ### Runs -/

section
variable {repr : Json → String} {parsePortIndex : Json → Option Nat} {privateIds : List String}
variable {incoming stored : OutputRoutes} {store : RouteStore}

variable (privateIds) in
/-- The edges after a request was saved. -/
theorem routeEdges_mergeRemoteOutputRoutes (stable : StableIndex parsePortIndex) {rawIncoming rawStored : Json}
    (isIncoming : normalizeOutputRoutes repr parsePortIndex rawIncoming = .ok incoming)
    (isStored : normalizeOutputRoutes repr parsePortIndex rawStored = .ok stored) :
    ∃ merged, mergeRemoteOutputRoutes repr parsePortIndex false privateIds rawIncoming rawStored = .ok merged ∧
      NormalRoutes parsePortIndex merged ∧
        routeEdges merged = mergedEdges privateIds (routeEdges incoming) (routeEdges stored) := by
  have normalIncoming := normalizeOutputRoutes_normal stable isIncoming
  have normalStored := normalizeOutputRoutes_normal stable isStored
  unfold mergeRemoteOutputRoutes
  rw [isIncoming]
  by_cases noneHidden : privateIds = []
  · subst noneHidden
    refine ⟨incoming, rfl, normalIncoming, Set.ext fun edge => ?_⟩
    simp [mergedEdges, not_touches_nil]
  · have start : NormalMerged parsePortIndex [] := ⟨List.nodup_nil, nofun, nofun⟩
    have first : NormalMerged parsePortIndex (mergeIncoming privateIds incoming) := by
      rw [mergeIncoming_eq]
      exact foldl_normal (fun _ _ => incomingStep_normal) normalIncoming start
    have normal : NormalMerged parsePortIndex
        (keepStored privateIds stored (mergeIncoming privateIds incoming)) := by
      rw [keepStored_eq]
      exact foldl_normal (fun _ _ => storedStep_normal) normalStored first
    refine ⟨_, ?_, mergedPayload_normal normal, Set.ext fun edge => ?_⟩
    · change (if false = true ∨ privateIds = [] then _ else _) = _
      rw [if_neg (by simp [noneHidden]), isStored]
      exact normalizeOutputRoutes_json (mergedPayload_normal normal)
    · rw [routeEdges_mergedPayload normal, mergedEdge_keepStored normalStored
        (fun _ hidden => targetsAt_mergeIncoming incoming hidden), mergedEdge_mergeIncoming normalIncoming]
      rfl

/-- The stored table is accepted. -/
def RouteStore.Accepted (repr : Json → String) (parsePortIndex : Json → Option Nat) (store : RouteStore) :
    Prop :=
  ∃ routes, normalizeOutputRoutes repr parsePortIndex store.outputRoutes = .ok routes

theorem RouteStore.edges_of_ok (read : normalizeOutputRoutes repr parsePortIndex store.outputRoutes = .ok stored) :
    store.edges repr parsePortIndex = routeEdges stored := by
  rw [RouteStore.edges, read]

theorem RouteStore.outputRoutes_changeVisibility (store : RouteStore) (changes : List (String × Bool)) :
    (store.changeVisibility changes).outputRoutes = store.outputRoutes := by
  refine List.foldlRecOn (motive := fun after : RouteStore => after.outputRoutes = store.outputRoutes)
    changes _ rfl fun after same change _ => ?_
  rw [RouteStore.setNodeVisibility]
  split_ifs
  · exact same
  · exact same

theorem RouteStore.saveGraph_ok (stable : StableIndex parsePortIndex) {validNodeIds : Option (List String)}
    {rawIncoming : Json} {after : RouteStore} (accepted : store.Accepted repr parsePortIndex)
    (saved : store.saveGraph repr parsePortIndex validNodeIds rawIncoming = .ok after) :
    ∃ incoming merged, normalizeOutputRoutes repr parsePortIndex rawIncoming = .ok incoming ∧
      normalizeOutputRoutes repr parsePortIndex after.outputRoutes = .ok merged ∧
        routeEdges merged =
          mergedEdges store.privateNodeIds (routeEdges incoming) (store.edges repr parsePortIndex) := by
  obtain ⟨stored, isStored⟩ := accepted
  obtain ⟨merged, isMerged, saved⟩ := bind_eq_ok.mp saved
  obtain ⟨cleaned, isCleaned, saved⟩ := bind_eq_ok.mp saved
  cases saved
  obtain ⟨incoming, isIncoming, -⟩ := bind_eq_ok.mp isMerged
  obtain ⟨merged', isMerged', normal, edges⟩ :=
    routeEdges_mergeRemoteOutputRoutes store.privateNodeIds stable isIncoming isStored
  rw [isMerged] at isMerged'
  cases isMerged'
  have same := normalizeOutputRoutes_of_for isCleaned
  rw [normalizeOutputRoutes_json normal] at same
  cases same
  refine ⟨incoming, merged, isIncoming, normalizeOutputRoutes_json normal, ?_⟩
  rw [edges, RouteStore.edges_of_ok isStored]

theorem RouteStore.handle_accepted (stable : StableIndex parsePortIndex)
    (accepted : store.Accepted repr parsePortIndex) (request : RouteRequest) :
    (store.handle repr parsePortIndex request).Accepted repr parsePortIndex := by
  cases request with
  | setVisibility nodeId isPrivate =>
    rw [RouteStore.handle, RouteStore.setNodeVisibility]
    split_ifs
    · exact accepted
    · exact accepted
  | load validNodeIds changed =>
    rw [RouteStore.handle, RouteStore.getGraph]
    split
    · exact accepted
    · rename_i cleaned isCleaned
      have normal := normalizeOutputRoutes_normal stable (normalizeOutputRoutes_of_for isCleaned)
      cases changed with
      | false => exact accepted
      | true => exact ⟨cleaned, normalizeOutputRoutes_json normal⟩
  | save validNodeIds incoming =>
    rw [RouteStore.handle]
    split
    · rename_i after saved
      obtain ⟨_, merged, -, isMerged, -⟩ := RouteStore.saveGraph_ok stable accepted saved
      exact ⟨merged, isMerged⟩
    · exact accepted

theorem RouteStore.run_accepted (stable : StableIndex parsePortIndex)
    (accepted : store.Accepted repr parsePortIndex) (requests : List RouteRequest) :
    (requests.foldl (RouteStore.handle repr parsePortIndex) store).Accepted repr parsePortIndex :=
  List.foldlRecOn requests _ accepted fun _ accepted request _ =>
    RouteStore.handle_accepted stable accepted request

theorem mergedEdges_loaded {before after : List String} {edges shown : Set RouteEdge}
    (isShown : ∀ edge, edge ∈ shown ↔ edge ∈ edges ∧ ¬ edge.Touches before) :
    mergedEdges after shown edges = edges ↔
      ∀ edge ∈ edges, edge.Touches before → edge.Touches after := by
  constructor
  · intro same edge mem hidden
    rw [← same] at mem
    rcases mem with ⟨inShown, -⟩ | ⟨-, touches⟩
    · exact absurd hidden ((isShown edge).mp inShown).2
    · exact touches
  · intro stays
    refine Set.ext fun edge => ⟨?_, fun mem => ?_⟩
    · rintro (⟨inShown, -⟩ | ⟨mem, -⟩)
      · exact ((isShown edge).mp inShown).1
      · exact mem
    · by_cases touches : edge.Touches after
      · exact .inr ⟨mem, touches⟩
      · exact .inl ⟨(isShown edge).mpr ⟨mem, fun hidden => touches (stays edge mem hidden)⟩, touches⟩

theorem RouteStore.savedBack_iff (stable : StableIndex parsePortIndex)
    (accepted : store.Accepted repr parsePortIndex) (changes : List (String × Bool)) :
    (∃ shown merged,
      filterOutputRoutesForRequest repr parsePortIndex false store.privateNodeIds store.outputRoutes =
        .ok shown ∧
      mergeRemoteOutputRoutes repr parsePortIndex false (store.changeVisibility changes).privateNodeIds
        (routesJson shown) (store.changeVisibility changes).outputRoutes = .ok merged ∧
      routeEdges merged = store.edges repr parsePortIndex) ↔
    ∀ edge ∈ store.edges repr parsePortIndex, edge.Touches store.privateNodeIds →
      edge.Touches (store.changeVisibility changes).privateNodeIds := by
  obtain ⟨stored, isStored⟩ := accepted
  obtain ⟨shown, isShown, normal, shownEdges⟩ :=
    routeEdges_filterOutputRoutes store.privateNodeIds stable isStored
  have isRead : normalizeOutputRoutes repr parsePortIndex (routesJson shown) = .ok shown :=
    normalizeOutputRoutes_json normal
  obtain ⟨back, isBack, -, backEdges⟩ := routeEdges_mergeRemoteOutputRoutes
    (store.changeVisibility changes).privateNodeIds stable isRead isStored
  rw [RouteStore.edges_of_ok isStored, RouteStore.outputRoutes_changeVisibility,
    ← mergedEdges_loaded shownEdges, ← backEdges]
  constructor
  · rintro ⟨shown', merged, isShown', isMerged, same⟩
    rw [isShown] at isShown'
    cases isShown'
    rw [isBack] at isMerged
    cases isMerged
    exact same
  · intro same
    exact ⟨shown, back, isShown, isBack, same⟩

theorem RouteStore.shown_same (stable : StableIndex parsePortIndex)
    (accepted : store.Accepted repr parsePortIndex) {other : Json} {otherRoutes : OutputRoutes}
    (isOther : normalizeOutputRoutes repr parsePortIndex other = .ok otherRoutes)
    (agree : ∀ edge, ¬ edge.Touches store.privateNodeIds →
      (edge ∈ store.edges repr parsePortIndex ↔ edge ∈ routeEdges otherRoutes)) :
    ∃ shown otherShown,
      filterOutputRoutesForRequest repr parsePortIndex false store.privateNodeIds store.outputRoutes =
        .ok shown ∧
      filterOutputRoutesForRequest repr parsePortIndex false store.privateNodeIds other = .ok otherShown ∧
      routeEdges shown = routeEdges otherShown := by
  obtain ⟨stored, isStored⟩ := accepted
  obtain ⟨shown, isShown, -, shownEdges⟩ :=
    routeEdges_filterOutputRoutes store.privateNodeIds stable isStored
  obtain ⟨otherShown, isOtherShown, -, otherEdges⟩ :=
    routeEdges_filterOutputRoutes store.privateNodeIds stable isOther
  refine ⟨shown, otherShown, isShown, isOtherShown, Set.ext fun edge => ?_⟩
  rw [RouteStore.edges_of_ok isStored] at agree
  rw [shownEdges, otherEdges]
  exact and_congr_left (agree edge)

/-- In every run, users without owner access see and save what they should; a table that is saved back
as it was loaded leaves the stored edges as they are if and only if every stored edge that touches a
private node at the load touches one at the save. -/
theorem keepsPrivateRoutes_iff (repr : Json → String) (stable : StableIndex parsePortIndex)
    (start : RouteStore) (accepted : start.Accepted repr parsePortIndex) (requests : List RouteRequest)
    (changes : List (String × Bool)) :
    (requests.foldl (RouteStore.handle repr parsePortIndex) start).KeepsPrivateRoutes repr parsePortIndex
        changes ↔
      ∀ edge ∈ (requests.foldl (RouteStore.handle repr parsePortIndex) start).edges repr parsePortIndex,
        edge.Touches (requests.foldl (RouteStore.handle repr parsePortIndex) start).privateNodeIds →
          edge.Touches ((requests.foldl (RouteStore.handle repr parsePortIndex) start).changeVisibility
            changes).privateNodeIds := by
  have reached := RouteStore.run_accepted stable accepted requests
  rw [← RouteStore.savedBack_iff stable reached changes]
  constructor
  · exact fun keeps => keeps.savedBack
  · intro savedBack
    refine ⟨fun other otherRoutes isOther => RouteStore.shown_same stable reached isOther, ?_, ?_, savedBack⟩
    · obtain ⟨stored, isStored⟩ := reached
      intro incoming merged isMerged
      obtain ⟨routes, isRoutes, -⟩ := bind_eq_ok.mp isMerged
      obtain ⟨merged', isMerged', -, edges⟩ := routeEdges_mergeRemoteOutputRoutes
        (requests.foldl (RouteStore.handle repr parsePortIndex) start).privateNodeIds stable isRoutes isStored
      rw [isMerged] at isMerged'
      cases isMerged'
      exact ⟨routes, isRoutes, by rw [edges, RouteStore.edges_of_ok isStored]⟩
    · intro validNodeIds incoming after saved
      obtain ⟨routes, merged, isRoutes, isMerged, edges⟩ := RouteStore.saveGraph_ok stable reached saved
      exact ⟨routes, isRoutes, by rw [RouteStore.edges_of_ok isMerged, edges]⟩

end

/-- An edge from a public node to a private one. -/
def secretStore : RouteStore where
  outputRoutes := routesJson [("a", [{ outputIndex := 0, targets := [{ nodeId := "secret", inputIndex := 0 }] }])]
  nodes := [("a", false), ("secret", true)]

theorem secretStore_read (repr : Json → String) :
    normalizeOutputRoutes repr digitIndex secretStore.outputRoutes =
      .ok [("a", [{ outputIndex := 0, targets := [{ nodeId := "secret", inputIndex := 0 }] }])] := by
  refine normalizeOutputRoutes_json ⟨by decide, ?_, ?_, ?_, ?_⟩
  all_goals refine List.forall_mem_singleton.mpr ?_
  · decide +kernel
  · decide
  · simp
  · refine ⟨by simp, List.forall_mem_singleton.mpr ⟨by decide +kernel, by simp, ?_⟩⟩
    exact List.forall_mem_singleton.mpr ⟨by decide +kernel, by decide, by decide +kernel⟩

/-- From `a` to the private node and to `b`, and from the private node to `b`. -/
def sharedRoutes : OutputRoutes :=
  [("a", [{ outputIndex := 0, targets := [{ nodeId := "secret", inputIndex := 0 }] },
      { outputIndex := 1, targets := [{ nodeId := "b", inputIndex := 0 }] }]),
    ("secret", [{ outputIndex := 0, targets := [{ nodeId := "b", inputIndex := 2 }] }])]

def sharedStore : RouteStore where
  outputRoutes := routesJson sharedRoutes
  nodes := [("a", false), ("b", false), ("secret", true)]

theorem sharedRoutes_normal : NormalRoutes digitIndex sharedRoutes := by
  have index : ∀ n < 3, digitIndex (.nat n) = some n := by decide +kernel
  refine ⟨by decide, ?_, ?_, ?_, ?_⟩
  all_goals refine List.forall_mem_cons.mpr ⟨?_, List.forall_mem_singleton.mpr ?_⟩
  · decide +kernel
  · decide +kernel
  · decide
  · decide
  · simp
  · simp
  · refine ⟨by simp, List.forall_mem_cons.mpr ⟨?_, List.forall_mem_singleton.mpr ?_⟩⟩
    · refine ⟨index 0 (by decide), by simp, List.forall_mem_singleton.mpr ?_⟩
      exact ⟨by decide +kernel, by decide, index 0 (by decide)⟩
    · refine ⟨index 1 (by decide), by simp, List.forall_mem_singleton.mpr ?_⟩
      exact ⟨by decide +kernel, by decide, index 0 (by decide)⟩
  · refine ⟨by simp, List.forall_mem_singleton.mpr ⟨index 0 (by decide), by simp, ?_⟩⟩
    exact List.forall_mem_singleton.mpr ⟨by decide +kernel, by decide, index 2 (by decide)⟩

/-- After a load that stores the table, `b` becomes private; `a` does between the load and the save of what
was loaded.  Nothing is lost. -/
theorem keepsPrivateRoutes_iff_shared :
    ([.load none true, .setVisibility "b" true].foldl (RouteStore.handle (fun _ => "") digitIndex)
      sharedStore).KeepsPrivateRoutes (fun _ => "") digitIndex [("a", true)] := by
  refine (keepsPrivateRoutes_iff _ digitIndex_stable sharedStore
    ⟨_, normalizeOutputRoutes_json sharedRoutes_normal⟩ [.load none true, .setVisibility "b" true]
    [("a", true)]).mpr fun edge _ touches => ?_
  have atLoad : ([.load none true, .setVisibility "b" true].foldl (RouteStore.handle (fun _ => "") digitIndex)
      sharedStore).privateNodeIds = ["b", "secret"] := by
    decide +kernel
  have atSave : (([.load none true, .setVisibility "b" true].foldl (RouteStore.handle (fun _ => "") digitIndex)
      sharedStore).changeVisibility [("a", true)]).privateNodeIds = ["a", "b", "secret"] := by
    decide +kernel
  rw [atLoad] at touches
  rw [atSave]
  exact touches.imp (List.mem_cons_of_mem _) (List.mem_cons_of_mem _)

/-- The edge is lost when the node is made public between the load and the save. -/
theorem keepsPrivateRoutes_fails :
    ¬ ∀ (repr : Json → String) (parsePortIndex : Json → Option Nat), StableIndex parsePortIndex →
      ∀ start : RouteStore, start.Accepted repr parsePortIndex →
        ∀ (requests : List RouteRequest) (changes : List (String × Bool)),
        (requests.foldl (RouteStore.handle repr parsePortIndex) start).KeepsPrivateRoutes repr parsePortIndex
          changes := by
  intro claimed
  let repr : Json → String := fun _ => ""
  have accepted : secretStore.Accepted repr digitIndex := ⟨_, secretStore_read repr⟩
  have keeps := claimed repr digitIndex digitIndex_stable secretStore accepted [] [("secret", false)]
  have stays := (RouteStore.savedBack_iff digitIndex_stable accepted [("secret", false)]).mp keeps.savedBack
    ⟨"a", 0, { nodeId := "secret", inputIndex := 0 }⟩ (by
      rw [RouteStore.edges_of_ok (secretStore_read repr)]
      exact ⟨_, List.mem_cons_self, _, List.mem_cons_self, rfl, List.mem_cons_self⟩)
    (.inr (by decide +kernel))
  have nonePrivate : (secretStore.changeVisibility [("secret", false)]).privateNodeIds = [] := by
    decide +kernel
  rw [nonePrivate] at stays
  exact not_touches_nil stays

end AgentPark.Nodes
