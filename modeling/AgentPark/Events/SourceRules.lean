import AgentPark.Lib.Json
import AgentPark.Lib.Mapping

/-!
# The rules of a source

The rules of events are kept by event, graph and node.  The rules of one node, or of a whole graph, are taken
out and put back, or replaced by rules from a profile.
-/

namespace AgentPark.Events

open Lib

/-- A handler, as it is configured. -/
abbrev Handler : Type := List (String × Json)

abbrev GraphRules : Type := Mapping String (List Handler)

abbrev EventRules : Type := Mapping String GraphRules

/-- `RulesPayload` -/
abbrev RulesPayload : Type := Mapping String EventRules

/-- `SourceEventRules` -/
abbrev SourceEventRules : Type := Mapping String (List Handler)

/-- `EVENTS` -/
def eventNames : List String :=
  ["OnInput", "ToolFailure", "RuntimeNotice", "NetError", "WorkPersisted", "WorkFailed"]

/-- An event, a graph and a node. -/
structure RulePath where
  event : String
  graph : String
  node : String
deriving DecidableEq

/-- The handlers at a path. -/
def handlersAt (rules : RulesPayload) (path : RulePath) : Option (List Handler) :=
  ((rules.get? path.event).bind (·.get? path.graph)).bind (·.get? path.node)

/-- There is no empty event or graph. -/
def Canonical (rules : RulesPayload) : Prop :=
  ∀ event eventRules, rules.get? event = some eventRules → eventRules.isEmpty = false ∧
    ∀ graph graphRules, eventRules.get? graph = some graphRules → graphRules.isEmpty = false

theorem canonical_empty : Canonical .empty := by
  intro event eventRules found
  cases found

/-- `canonicalize_rules_payload` -/
def canonicalizeRulesPayload (rules : RulesPayload) : RulesPayload :=
  rules.filterMap fun _ eventRules =>
    if eventRules.isEmpty then none
    else some (eventRules.filterMap fun _ graphRules =>
      if graphRules.isEmpty then none else some graphRules)

/-- `rules.setdefault(event, {}).setdefault(graph, {})[node] = handlers` -/
def setHandlers (rules : RulesPayload) (path : RulePath) (handlers : List Handler) : RulesPayload :=
  let eventRules := (rules.get? path.event).getD .empty
  let graphRules := (eventRules.get? path.graph).getD .empty
  rules.set path.event (eventRules.set path.graph (graphRules.set path.node handlers))

/-- The rules of a graph take their place in an event, and what is empty then goes. -/
def putPruned (rules : RulesPayload) (event graph : String) (eventRules : EventRules)
    (graphRules : GraphRules) : RulesPayload :=
  let rest := if graphRules.isEmpty then eventRules.erase graph else eventRules.set graph graphRules
  if rest.isEmpty then rules.erase event else rules.set event rest

/-! ### Reading and writing a path -/

theorem handlersAt_canonicalizeRulesPayload (rules : RulesPayload) (path : RulePath) :
    handlersAt (canonicalizeRulesPayload rules) path = handlersAt rules path := by
  unfold handlersAt canonicalizeRulesPayload
  rw [Mapping.get?_filterMap]
  cases rules.get? path.event with
  | none => rfl
  | some eventRules =>
    rw [Option.bind_some, Option.bind_some]
    by_cases noGraph : eventRules.isEmpty = true
    · rw [if_pos noGraph, Mapping.isEmpty_iff.mp noGraph]
      rfl
    · rw [if_neg noGraph, Option.bind_some, Mapping.get?_filterMap]
      cases eventRules.get? path.graph with
      | none => rfl
      | some graphRules =>
        rw [Option.bind_some, Option.bind_some]
        by_cases noNode : graphRules.isEmpty = true
        · rw [if_pos noNode, Mapping.isEmpty_iff.mp noNode]
          rfl
        · rw [if_neg noNode]
          rfl

theorem Canonical.canonicalize {rules : RulesPayload} (canonical : Canonical rules) :
    Canonical (canonicalizeRulesPayload rules) := by
  intro event eventRules found
  rw [canonicalizeRulesPayload, Mapping.get?_filterMap] at found
  obtain ⟨old, isOld, kept⟩ := Option.bind_eq_some_iff.mp found
  obtain ⟨occupied, graphs⟩ := canonical event old isOld
  rw [if_neg (Bool.eq_false_iff.mp occupied)] at kept
  cases kept
  have same (graph : String) : (old.filterMap fun _ graphRules =>
      if graphRules.isEmpty then none else some graphRules).get? graph = old.get? graph := by
    rw [Mapping.get?_filterMap]
    cases isGraph : old.get? graph with
    | none => rfl
    | some graphRules => exact if_neg (Bool.eq_false_iff.mp (graphs graph graphRules isGraph))
  constructor
  · rw [Bool.eq_false_iff, Ne, Mapping.isEmpty_iff] at occupied ⊢
    intro absent
    exact occupied fun graph => (same graph).symm.trans (absent graph)
  · intro graph graphRules isGraph
    exact graphs graph graphRules ((same graph).symm.trans isGraph)

/-- What a write of handlers changes. -/
theorem handlersAt_setHandlers (rules : RulesPayload) (path other : RulePath) (handlers : List Handler) :
    handlersAt (setHandlers rules path handlers) other =
      if other = path then some handlers else handlersAt rules other := by
  obtain ⟨event, graph, node⟩ := path
  obtain ⟨event', graph', node'⟩ := other
  unfold handlersAt setHandlers
  simp only [Mapping.get?_set, RulePath.mk.injEq]
  by_cases sameEvent : event' = event
  · subst sameEvent
    rw [if_pos rfl, Option.bind_some, Mapping.get?_set]
    by_cases sameGraph : graph' = graph
    · subst sameGraph
      rw [if_pos rfl, Option.bind_some, Mapping.get?_set]
      by_cases sameNode : node' = node
      · rw [if_pos sameNode, if_pos ⟨rfl, rfl, sameNode⟩]
      · rw [if_neg sameNode, if_neg fun same => sameNode same.2.2]
        cases rules.get? event' with
        | none => rfl
        | some eventRules =>
          rw [Option.getD_some, Option.bind_some]
          cases eventRules.get? graph' with
          | none => rfl
          | some graphRules => rfl
    · rw [if_neg sameGraph, if_neg fun same => sameGraph same.2.1]
      cases rules.get? event' with
      | none => rfl
      | some eventRules => rfl
  · rw [if_neg sameEvent, if_neg fun same => sameEvent same.1]

theorem Canonical.setHandlers {rules : RulesPayload} (canonical : Canonical rules) (path : RulePath)
    (handlers : List Handler) : Canonical (setHandlers rules path handlers) := by
  intro event eventRules found
  unfold Events.setHandlers at found
  rw [Mapping.get?_set] at found
  split at found
  · cases found
    refine ⟨Mapping.isEmpty_set _ _ _, fun graph graphRules isGraph => ?_⟩
    rw [Mapping.get?_set] at isGraph
    split at isGraph
    · cases isGraph
      exact Mapping.isEmpty_set _ _ _
    · cases isEvent : rules.get? path.event with
      | none =>
        rw [isEvent] at isGraph
        cases isGraph
      | some old =>
        rw [isEvent] at isGraph
        exact (canonical _ old isEvent).2 graph graphRules isGraph
  · exact canonical event eventRules found

section PutPruned

variable {rules : RulesPayload} {event graph : String} {eventRules : EventRules} {graphRules : GraphRules}

theorem get?_pruned (other node : String) :
    ((if graphRules.isEmpty then eventRules.erase graph else eventRules.set graph graphRules).get?
        other).bind (·.get? node) =
      if other = graph then graphRules.get? node else (eventRules.get? other).bind (·.get? node) := by
  by_cases noNode : graphRules.isEmpty = true
  · rw [if_pos noNode, Mapping.get?_erase]
    split
    · rw [Mapping.isEmpty_iff.mp noNode]
      rfl
    · rfl
  · rw [if_neg noNode, Mapping.get?_set]
    split
    · rfl
    · rfl

/-- What a write that may remove an entry changes. -/
theorem handlersAt_putPruned (path : RulePath) (there : rules.get? event = some eventRules) :
    handlersAt (putPruned rules event graph eventRules graphRules) path =
      if path.event = event ∧ path.graph = graph then graphRules.get? path.node
      else handlersAt rules path := by
  have pruned := @get?_pruned graph eventRules graphRules path.graph path.node
  unfold handlersAt putPruned
  dsimp only
  generalize (if graphRules.isEmpty then eventRules.erase graph else eventRules.set graph graphRules) = rest
    at pruned ⊢
  by_cases sameEvent : path.event = event
  · have old : (rules.get? path.event).bind (·.get? path.graph) = eventRules.get? path.graph := by
      rw [sameEvent, there, Option.bind_some]
    have new : ((if rest.isEmpty then rules.erase event else rules.set event rest).get? path.event).bind
        (·.get? path.graph) = rest.get? path.graph := by
      by_cases noGraph : rest.isEmpty = true
      · rw [if_pos noGraph, Mapping.get?_erase, if_pos sameEvent, Mapping.isEmpty_iff.mp noGraph]
        rfl
      · rw [if_neg noGraph, Mapping.get?_set, if_pos sameEvent, Option.bind_some]
    rw [new, old, pruned]
    by_cases sameGraph : path.graph = graph
    · rw [if_pos sameGraph, if_pos ⟨sameEvent, sameGraph⟩]
    · rw [if_neg sameGraph, if_neg fun same => sameGraph same.2]
  · have outside : ¬ (path.event = event ∧ path.graph = graph) := fun same => sameEvent same.1
    rw [if_neg outside]
    split
    · rw [Mapping.get?_erase, if_neg sameEvent]
    · rw [Mapping.get?_set, if_neg sameEvent]

theorem Canonical.putPruned (canonical : Canonical rules) (there : rules.get? event = some eventRules) :
    Canonical (putPruned rules event graph eventRules graphRules) := by
  have graphs := (canonical event eventRules there).2
  have kept : ∀ other otherRules,
      (if graphRules.isEmpty then eventRules.erase graph else eventRules.set graph graphRules).get? other =
        some otherRules → otherRules.isEmpty = false := by
    intro other otherRules found
    split at found
    · rw [Mapping.get?_erase] at found
      split at found
      · cases found
      · exact graphs other otherRules found
    · rename_i occupied
      rw [Mapping.get?_set] at found
      split at found
      · cases found
        exact Bool.eq_false_iff.mpr occupied
      · exact graphs other otherRules found
  intro other otherRules found
  unfold Events.putPruned at found
  dsimp only at found
  generalize (if graphRules.isEmpty then eventRules.erase graph else eventRules.set graph graphRules) = rest
    at kept found
  split at found
  · rw [Mapping.get?_erase] at found
    split at found
    · cases found
    · exact canonical other otherRules found
  · rename_i occupied
    rw [Mapping.get?_set] at found
    split at found
    · cases found
      exact ⟨Bool.eq_false_iff.mpr occupied, kept⟩
    · exact canonical other otherRules found

end PutPruned

/-! ### Taking rules out and putting them back -/

/-- The results of `_remove_source_rules` while it works. -/
structure Removal where
  remaining : RulesPayload
  removed : RulesPayload := .empty
  removedHandlers : Nat := 0

/-- A round of the inner loop of `_remove_source_rules`, with the rules of the graph. -/
def removeNode (event graph : String) (state : GraphRules × RulesPayload × Nat) (node : String) :
    GraphRules × RulesPayload × Nat :=
  match state.1.get? node with
  | none => state
  | some handlers =>
    (state.1.erase node, setHandlers state.2.1 ⟨event, graph, node⟩ handlers,
      state.2.2 + handlers.length)

/-- The nodes that are taken out of a graph. -/
def selectedNodes (node : Option String) (graphRules : GraphRules) : List String :=
  match node with
  | some node => [node]
  | none => graphRules.keys

/-- A round of the outer loop of `_remove_source_rules`. -/
def removeFromEvent (graph : String) (node : Option String) (state : Removal) (event : String) : Removal :=
  match state.remaining.get? event with
  | none => state
  | some eventRules =>
    match eventRules.get? graph with
    | none => state
    | some graphRules =>
      if graphRules.isEmpty then state
      else
        let (rest, removed, count) := (selectedNodes node graphRules).foldl (removeNode event graph)
          (graphRules, state.removed, state.removedHandlers)
        ⟨putPruned state.remaining event graph eventRules rest, removed, count⟩

/-- `_remove_source_rules` -/
def removeSourceRules (rules : RulesPayload) (graph : String) (node : Option String) : Removal :=
  let remaining := canonicalizeRulesPayload rules
  remaining.keys.foldl (removeFromEvent graph node) { remaining := remaining }

/-- `_merge_source_rules`, the merged rules -/
def mergeSourceRules (current restored : RulesPayload) : RulesPayload :=
  restored.entries.foldl (fun output eventEntry =>
    eventEntry.2.entries.foldl (fun output graphEntry =>
      graphEntry.2.entries.foldl (fun output nodeEntry =>
        setHandlers output ⟨eventEntry.1, graphEntry.1, nodeEntry.1⟩ nodeEntry.2) output) output)
    (canonicalizeRulesPayload current)

/-- A node goes from an event, where the graph has rules. -/
def popNode (output : RulesPayload) (path : RulePath) : RulesPayload :=
  match output.get? path.event with
  | none => output
  | some eventRules =>
    match eventRules.get? path.graph with
    | none => output
    | some graphRules => putPruned output path.event path.graph eventRules (graphRules.erase path.node)

/-- The node is one of those that are taken out. -/
def Selects (node : Option String) (other : String) : Prop := node = none ∨ node = some other

instance (node : Option String) (other : String) : Decidable (Selects node other) :=
  inferInstanceAs (Decidable (_ ∨ _))

theorem foldl_removeNode (event graph : String) (nodes : List String)
    (state : GraphRules × RulesPayload × Nat) :
    (∀ other, (nodes.foldl (removeNode event graph) state).1.get? other =
      if other ∈ nodes then none else state.1.get? other) ∧
    (∀ path, handlersAt (nodes.foldl (removeNode event graph) state).2.1 path =
      if path.event = event ∧ path.graph = graph ∧ path.node ∈ nodes then
        (state.1.get? path.node).or (handlersAt state.2.1 path)
      else handlersAt state.2.1 path) ∧
    (Canonical state.2.1 → Canonical (nodes.foldl (removeNode event graph) state).2.1) := by
  induction nodes generalizing state with
  | nil => simp
  | cons node nodes ih =>
    obtain ⟨rest, removed, canonical⟩ := ih (removeNode event graph state node)
    rw [List.foldl_cons]
    cases there : state.1.get? node with
    | none =>
      have same : removeNode event graph state node = state := by
        rw [removeNode, there]
      rw [same] at rest removed canonical ⊢
      refine ⟨fun other => ?_, fun path => ?_, canonical⟩
      · rw [rest]
        by_cases isNode : other = node
        · simp [isNode, there]
        · simp [isNode]
      · rw [removed]
        by_cases isNode : path.node = node
        · simp [isNode, there]
        · simp [isNode]
    | some handlers =>
      have moved : removeNode event graph state node = (state.1.erase node,
          setHandlers state.2.1 ⟨event, graph, node⟩ handlers, state.2.2 + handlers.length) := by
        rw [removeNode, there]
      rw [moved] at rest removed canonical ⊢
      refine ⟨fun other => ?_, fun path => ?_, fun old => canonical (old.setHandlers _ _)⟩
      · rw [rest, Mapping.get?_erase]
        by_cases isNode : other = node
        · simp [isNode]
        · simp [isNode]
      · rw [removed, Mapping.get?_erase, handlersAt_setHandlers]
        obtain ⟨event', graph', node'⟩ := path
        simp only [RulePath.mk.injEq]
        by_cases isNode : node' = node
        · subst isNode
          by_cases sameSource : event' = event ∧ graph' = graph
          · obtain ⟨rfl, rfl⟩ := sameSource
            simp [there]
          · have elsewhere (P : Prop) : ¬ (event' = event ∧ graph' = graph ∧ P) := fun all =>
              sameSource ⟨all.1, all.2.1⟩
            rw [if_neg (elsewhere _), if_neg (elsewhere _), if_neg (elsewhere _)]
        · simp [isNode]

theorem mem_selectedNodes {node : Option String} {graphRules : GraphRules} {other : String} :
    other ∈ selectedNodes node graphRules ↔
      Selects node other ∧ (node = none → (graphRules.get? other).isSome) := by
  cases node with
  | none =>
    rw [selectedNodes, Mapping.mem_keys]
    exact ⟨fun found => ⟨Or.inl rfl, fun _ => found⟩, fun both => both.2 rfl⟩
  | some node =>
    rw [selectedNodes, List.mem_singleton, Selects, Option.some.injEq]
    constructor
    · intro same
      exact ⟨Or.inr same.symm, nofun⟩
    · intro ⟨selected, _⟩
      rcases selected with absurd | same
      · cases absurd
      · exact same.symm

theorem removeFromEvent_spec (graph : String) (node : Option String) (state : Removal) (event : String) :
    (∀ path, handlersAt (removeFromEvent graph node state event).remaining path =
      if path.event = event ∧ path.graph = graph ∧ Selects node path.node then none
      else handlersAt state.remaining path) ∧
    (∀ path, handlersAt (removeFromEvent graph node state event).removed path =
      if path.event = event ∧ path.graph = graph ∧ Selects node path.node then
        (handlersAt state.remaining path).or (handlersAt state.removed path)
      else handlersAt state.removed path) ∧
    (Canonical state.remaining → Canonical (removeFromEvent graph node state event).remaining) ∧
    (Canonical state.removed → Canonical (removeFromEvent graph node state event).removed) := by
  have stays (nothing : ∀ path : RulePath, path.event = event → path.graph = graph →
      handlersAt state.remaining path = none) (same : removeFromEvent graph node state event = state) :
      (∀ path, handlersAt (removeFromEvent graph node state event).remaining path =
        if path.event = event ∧ path.graph = graph ∧ Selects node path.node then none
        else handlersAt state.remaining path) ∧
      (∀ path, handlersAt (removeFromEvent graph node state event).removed path =
        if path.event = event ∧ path.graph = graph ∧ Selects node path.node then
          (handlersAt state.remaining path).or (handlersAt state.removed path)
        else handlersAt state.removed path) ∧
      (Canonical state.remaining → Canonical (removeFromEvent graph node state event).remaining) ∧
      (Canonical state.removed → Canonical (removeFromEvent graph node state event).removed) := by
    rw [same]
    refine ⟨fun path => ?_, fun path => ?_, id, id⟩
    · split
      · rename_i here
        exact nothing path here.1 here.2.1
      · rfl
    · split
      · rename_i here
        rw [nothing path here.1 here.2.1, Option.none_or]
      · rfl
  cases there : state.remaining.get? event with
  | none =>
    refine stays (fun path isEvent _ => ?_) (by rw [removeFromEvent, there])
    rw [handlersAt, isEvent, there]
    rfl
  | some eventRules =>
    cases isGraph : eventRules.get? graph with
    | none =>
      refine stays (fun path isEvent sameGraph => ?_) ?_
      · rw [handlersAt, isEvent, there, Option.bind_some, sameGraph, isGraph]
        rfl
      · rw [removeFromEvent, there]
        dsimp only
        rw [isGraph]
    | some graphRules =>
      by_cases isNil : graphRules.isEmpty = true
      · refine stays (fun path isEvent sameGraph => ?_) ?_
        · rw [handlersAt, isEvent, there, Option.bind_some, sameGraph, isGraph, Option.bind_some]
          exact Mapping.isEmpty_iff.mp isNil _
        · rw [removeFromEvent, there]
          dsimp only
          rw [isGraph]
          exact if_pos isNil
      · obtain ⟨rest, removed, canonical⟩ := foldl_removeNode event graph
          (selectedNodes node graphRules) (graphRules, state.removed, state.removedHandlers)
        have here (path : RulePath) (isEvent : path.event = event) (sameGraph : path.graph = graph) :
            handlersAt state.remaining path = graphRules.get? path.node := by
          rw [handlersAt, isEvent, there, Option.bind_some, sameGraph, isGraph, Option.bind_some]
        have absent (other : String) (selected : Selects node other)
            (unlisted : other ∉ selectedNodes node graphRules) : graphRules.get? other = none := by
          rw [mem_selectedNodes, not_and, Classical.not_imp] at unlisted
          exact Option.not_isSome_iff_eq_none.mp (unlisted selected).2
        have moves : removeFromEvent graph node state event =
            let moved := (selectedNodes node graphRules).foldl (removeNode event graph)
              (graphRules, state.removed, state.removedHandlers)
            ⟨putPruned state.remaining event graph eventRules moved.1, moved.2.1, moved.2.2⟩ := by
          rw [removeFromEvent, there]
          dsimp only
          rw [isGraph]
          exact if_neg isNil
        rw [moves]
        dsimp only
        refine ⟨fun path => ?_, fun path => ?_, fun old => old.putPruned there, canonical⟩
        · rw [handlersAt_putPruned path there, rest]
          by_cases source : path.event = event ∧ path.graph = graph
          · rw [if_pos source, here path source.1 source.2]
            by_cases listed : path.node ∈ selectedNodes node graphRules
            · have selected := (mem_selectedNodes.mp listed).1
              rw [if_pos listed, if_pos ⟨source.1, source.2, selected⟩]
            · rw [if_neg listed]
              split
              · rename_i all
                exact absent _ all.2.2 listed
              · rfl
          · rw [if_neg source, if_neg fun all => source ⟨all.1, all.2.1⟩]
        · rw [removed]
          by_cases source : path.event = event ∧ path.graph = graph
          · rw [here path source.1 source.2]
            by_cases listed : path.node ∈ selectedNodes node graphRules
            · have selected := (mem_selectedNodes.mp listed).1
              rw [if_pos ⟨source.1, source.2, listed⟩, if_pos ⟨source.1, source.2, selected⟩]
            · rw [if_neg fun all => listed all.2.2]
              split
              · rename_i all
                rw [absent _ all.2.2 listed, Option.none_or]
              · rfl
          · rw [if_neg fun all => source ⟨all.1, all.2.1⟩, if_neg fun all => source ⟨all.1, all.2.1⟩]

theorem foldl_removeFromEvent (graph : String) (node : Option String) (events : List String)
    (state : Removal) :
    (∀ path, handlersAt (events.foldl (removeFromEvent graph node) state).remaining path =
      if path.event ∈ events ∧ path.graph = graph ∧ Selects node path.node then none
      else handlersAt state.remaining path) ∧
    (∀ path, handlersAt (events.foldl (removeFromEvent graph node) state).removed path =
      if path.event ∈ events ∧ path.graph = graph ∧ Selects node path.node then
        (handlersAt state.remaining path).or (handlersAt state.removed path)
      else handlersAt state.removed path) ∧
    (Canonical state.remaining →
      Canonical (events.foldl (removeFromEvent graph node) state).remaining) ∧
    (Canonical state.removed → Canonical (events.foldl (removeFromEvent graph node) state).removed) := by
  induction events generalizing state with
  | nil => simp
  | cons event events ih =>
    obtain ⟨remaining, removed, canonical, canonicalRemoved⟩ :=
      removeFromEvent_spec graph node state event
    obtain ⟨remaining', removed', canonical', canonicalRemoved'⟩ :=
      ih (removeFromEvent graph node state event)
    rw [List.foldl_cons]
    refine ⟨fun path => ?_, fun path => ?_, canonical' ∘ canonical,
      canonicalRemoved' ∘ canonicalRemoved⟩
    · rw [remaining', remaining]
      by_cases first : path.event = event
      · by_cases source : path.graph = graph ∧ Selects node path.node
        · simp [first, source]
        · simp [first, source]
      · simp [first]
    · rw [removed', removed, remaining]
      by_cases first : path.event = event
      · by_cases source : path.graph = graph ∧ Selects node path.node
        · simp [first, source]
        · have elsewhere (P : Prop) : ¬ (P ∧ path.graph = graph ∧ Selects node path.node) := fun all =>
            source all.2
          rw [if_neg (elsewhere _), if_neg (elsewhere _), if_neg (elsewhere _)]
      · simp [first]

/-- The removal takes out the rules of the source and leaves the others. -/
theorem removeSourceRules_spec (rules : RulesPayload) (graph : String) (node : Option String) :
    (∀ path, handlersAt (removeSourceRules rules graph node).remaining path =
      if path.graph = graph ∧ Selects node path.node then none else handlersAt rules path) ∧
    (∀ path, handlersAt (removeSourceRules rules graph node).removed path =
      if path.graph = graph ∧ Selects node path.node then handlersAt rules path else none) ∧
    (Canonical rules → Canonical (removeSourceRules rules graph node).remaining) ∧
    Canonical (removeSourceRules rules graph node).removed := by
  obtain ⟨remaining, removed, canonical, canonicalRemoved⟩ := foldl_removeFromEvent graph node
    (canonicalizeRulesPayload rules).keys { remaining := canonicalizeRulesPayload rules }
  have absent (path : RulePath) (unlisted : path.event ∉ (canonicalizeRulesPayload rules).keys) :
      handlersAt rules path = none := by
    rw [Mapping.mem_keys, Option.not_isSome_iff_eq_none] at unlisted
    rw [← handlersAt_canonicalizeRulesPayload, handlersAt, unlisted]
    rfl
  refine ⟨fun path => ?_, fun path => ?_, fun old => canonical old.canonicalize, canonicalRemoved canonical_empty⟩
  · rw [removeSourceRules, remaining, handlersAt_canonicalizeRulesPayload]
    by_cases listed : path.event ∈ (canonicalizeRulesPayload rules).keys
    · simp [listed]
    · simp [listed, absent path listed]
  · rw [removeSourceRules, removed, handlersAt_canonicalizeRulesPayload]
    have nothing : handlersAt .empty path = none := rfl
    by_cases listed : path.event ∈ (canonicalizeRulesPayload rules).keys
    · simp [listed, nothing]
    · simp [listed, absent path listed, nothing]

/-- The merge has the restored handlers where there are any, and leaves the others. -/
theorem handlersAt_mergeSourceRules (current restored : RulesPayload) (path : RulePath) :
    handlersAt (mergeSourceRules current restored) path =
      (handlersAt restored path).or (handlersAt current path) := by
  have nodes (event graph : String) (graphRules : GraphRules) (output : RulesPayload) (path : RulePath) :=
    Mapping.get?_foldl (fun output node handlers => setHandlers output ⟨event, graph, node⟩ handlers)
      handlersAt RulePath.node
      (fun handlers path => if path.event = event ∧ path.graph = graph then some handlers else none)
      (by
        intro output node handlers path
        rw [handlersAt_setHandlers]
        obtain ⟨event', graph', node'⟩ := path
        simp only [RulePath.mk.injEq]
        grind) graphRules output path
  have graphs (event : String) (eventRules : EventRules) (output : RulesPayload) (path : RulePath) :=
    Mapping.get?_foldl (fun output graph (graphRules : GraphRules) =>
        graphRules.entries.foldl (fun output entry =>
          setHandlers output ⟨event, graph, entry.1⟩ entry.2) output)
      handlersAt RulePath.graph
      (fun graphRules path => if path.event = event then graphRules.get? path.node else none)
      (by
        intro output graph graphRules path
        rw [nodes]
        cases graphRules.get? path.node with
        | none => simp
        | some handlers =>
          rw [Option.bind_some]
          grind) eventRules output path
  have events := Mapping.get?_foldl (fun output event (eventRules : EventRules) =>
      eventRules.entries.foldl (fun output graphEntry =>
        graphEntry.2.entries.foldl (fun output entry =>
          setHandlers output ⟨event, graphEntry.1, entry.1⟩ entry.2) output) output)
    handlersAt RulePath.event
    (fun eventRules path => (eventRules.get? path.graph).bind (·.get? path.node))
    (by
      intro output event eventRules path
      rw [graphs]
      cases eventRules.get? path.graph with
      | none => simp
      | some graphRules =>
        rw [Option.bind_some]
        grind) restored (canonicalizeRulesPayload current) path
  have same : handlersAt restored path = (restored.get? path.event).bind fun eventRules =>
      (eventRules.get? path.graph).bind (·.get? path.node) := Option.bind_assoc _ _ _
  rw [mergeSourceRules, events, handlersAt_canonicalizeRulesPayload, same]

theorem Canonical.merge {current : RulesPayload} (canonical : Canonical current) (restored : RulesPayload) :
    Canonical (mergeSourceRules current restored) := by
  unfold mergeSourceRules
  refine List.foldlRecOn _ _ canonical.canonicalize fun output old event _ => ?_
  refine List.foldlRecOn _ _ old fun output old graph _ => ?_
  exact List.foldlRecOn _ _ old fun output old node _ => old.setHandlers _ _

theorem handlersAt_popNode (rules : RulesPayload) (path other : RulePath) :
    handlersAt (popNode rules path) other = if other = path then none else handlersAt rules other := by
  obtain ⟨event, graph, node⟩ := path
  obtain ⟨event', graph', node'⟩ := other
  simp only [RulePath.mk.injEq]
  have stays (nothing : (rules.get? event).bind (·.get? graph) = none) :
      handlersAt rules ⟨event', graph', node'⟩ =
        if event' = event ∧ graph' = graph ∧ node' = node then none
        else handlersAt rules ⟨event', graph', node'⟩ := by
    split
    · rename_i same
      rw [handlersAt, same.1, same.2.1, nothing]
      rfl
    · rfl
  cases there : rules.get? event with
  | none =>
    have same : popNode rules ⟨event, graph, node⟩ = rules := by
      rw [popNode, there]
    rw [same]
    exact stays (by rw [there]; rfl)
  | some eventRules =>
    cases isGraph : eventRules.get? graph with
    | none =>
      have same : popNode rules ⟨event, graph, node⟩ = rules := by
        rw [popNode, there]
        dsimp only
        rw [isGraph]
      rw [same]
      exact stays (by rw [there]; exact isGraph)
    | some graphRules =>
      have pops : popNode rules ⟨event, graph, node⟩ =
          putPruned rules event graph eventRules (graphRules.erase node) := by
        rw [popNode, there]
        dsimp only
        rw [isGraph]
      rw [pops, handlersAt_putPruned _ there, Mapping.get?_erase]
      by_cases source : event' = event ∧ graph' = graph
      · obtain ⟨rfl, rfl⟩ := source
        rw [if_pos ⟨rfl, rfl⟩, handlersAt, there, Option.bind_some, isGraph, Option.bind_some]
        simp
      · rw [if_neg source, if_neg fun all => source ⟨all.1, all.2.1⟩]

theorem handlersAt_foldl_popNode (paths : List RulePath) (output : RulesPayload) (path : RulePath) :
    handlersAt (paths.foldl popNode output) path = if path ∈ paths then none else handlersAt output path := by
  induction paths generalizing output with
  | nil => rfl
  | cons first paths ih =>
    rw [List.foldl_cons, ih, handlersAt_popNode]
    by_cases isFirst : path = first
    · simp [isFirst]
    · simp [isFirst]

/-! ### Compiling -/

/-- `_error` -/
structure RuleError where
  path : String
  field : String
  message : String
  handlerIndex : Option Nat := none
deriving DecidableEq

/-- A loop over the entries of a level: what they compile to under their keys, and their errors. -/
def compileLevel {β : Type} (entry : String × Json → Option (String × β) × List RuleError)
    (entries : List (String × Json)) : Mapping String β × List RuleError :=
  entries.foldl (fun compiled raw =>
    (match (entry raw).1 with
      | some item => compiled.1.set item.1 item.2
      | none => compiled.1,
    compiled.2 ++ (entry raw).2)) (.empty, [])

/-- The handlers of a node, from an index on. -/
def compileHandlers (path : String) (index : Nat) : List Json → List Handler × List RuleError
  | [] => ([], [])
  | .obj handler :: rest =>
    let (handlers, errors) := compileHandlers path (index + 1) rest
    (handler :: handlers, errors)
  | _ :: rest =>
    let (handlers, errors) := compileHandlers path (index + 1) rest
    (handlers, ⟨path ++ "[" ++ index.repr ++ "]", "", "handler must be an object", some index⟩ :: errors)

def compileNode (event graph : String) (raw : String × Json) :
    Option (String × List Handler) × List RuleError :=
  let node := pyStrip raw.1
  let path := "rules." ++ event ++ "." ++ graph ++ "." ++ node
  if node = "" then (none, [⟨"rules." ++ event ++ "." ++ graph, "node_id", "node id is required", none⟩])
  else
    match raw.2 with
    | .arr items =>
      let (handlers, errors) := compileHandlers path 0 items
      (some (node, handlers), errors)
    | _ => (none, [⟨path, "", "node event handlers must be a list", none⟩])

def compileGraph (event : String) (raw : String × Json) : Option (String × GraphRules) × List RuleError :=
  let graph := pyStrip raw.1
  if graph = "" then (none, [⟨"rules." ++ event, "graph_id", "graph id is required", none⟩])
  else
    match raw.2 with
    | .obj nodes =>
      let (graphRules, errors) := compileLevel (compileNode event graph) nodes
      (if graphRules.isEmpty then none else some (graph, graphRules), errors)
    | _ =>
      (none, [⟨"rules." ++ event ++ "." ++ graph, "", "graph rules must be an object keyed by node id",
        none⟩])

def compileEvent (raw : String × Json) : Option (String × EventRules) × List RuleError :=
  let event := pyStrip raw.1
  if event ∉ eventNames then (none, [⟨"rules", event, "unsupported event: " ++ event, none⟩])
  else
    match raw.2 with
    | .obj graphs =>
      let (eventRules, errors) := compileLevel (compileGraph event) graphs
      (if eventRules.isEmpty then none else some (event, eventRules), errors)
    | _ => (none, [⟨"rules." ++ event, "", "event rules must be an object keyed by graph id", none⟩])

/-- `compile_rules_payload`, with the errors it appends -/
def compileRulesPayload : Json → RulesPayload × List RuleError
  | .null => (.empty, [])
  | .obj events => compileLevel compileEvent events
  | _ => (.empty, [⟨"", "rules", "rules must be an object keyed by event", none⟩])

theorem compileLevel_eq {β : Type} (entry : String × Json → Option (String × β) × List RuleError)
    (entries : List (String × Json)) :
    compileLevel entry entries =
      (.ofPairs (entries.filterMap fun raw => (entry raw).1), entries.flatMap fun raw => (entry raw).2) := by
  have loop (compiled : Mapping String β × List RuleError) :
      entries.foldl (fun compiled raw =>
        (match (entry raw).1 with
          | some item => compiled.1.set item.1 item.2
          | none => compiled.1,
        compiled.2 ++ (entry raw).2)) compiled =
      ((entries.filterMap fun raw => (entry raw).1).foldl (fun m pair => m.set pair.1 pair.2) compiled.1,
        compiled.2 ++ entries.flatMap fun raw => (entry raw).2) := by
    induction entries generalizing compiled with
    | nil => simp
    | cons raw entries ih =>
      rw [List.foldl_cons, ih, List.filterMap_cons, List.flatMap_cons, List.append_assoc]
      cases (entry raw).1 with
      | none => rfl
      | some item => rfl
  exact loop (.empty, [])

/-- The handlers of a list. -/
def handlersOf : Json → List Handler
  | .arr items => items.filterMap fun
      | .obj handler => some handler
      | _ => none
  | _ => []

theorem compileHandlers_spec (path : String) (index : Nat) (items : List Json) :
    (compileHandlers path index items).1 = handlersOf (.arr items) ∧
      ((compileHandlers path index items).2 = [] ↔ ∀ item ∈ items, ∃ handler, item = .obj handler) := by
  induction items generalizing index with
  | nil => exact ⟨rfl, by simp [compileHandlers]⟩
  | cons item items ih =>
    obtain ⟨handlers, errors⟩ := ih (index + 1)
    cases item with
    | obj handler =>
      rw [compileHandlers]
      dsimp only
      rw [handlers, errors]
      exact ⟨rfl, by simp⟩
    | null | bool _ | num _ | str _ | arr _ =>
      rw [compileHandlers]
      dsimp only
      rw [handlers]
      exact ⟨rfl, by simp⟩
      all_goals exact nofun

/-! ### Rules from a profile -/

/-- `export_source_event_rules` -/
def exportSourceEventRules (rules : RulesPayload) (graph node : String) : SourceEventRules :=
  (canonicalizeRulesPayload rules).filterMap fun _ eventRules => (eventRules.get? graph).bind (·.get? node)

/-- The rules of a profile as rules of a source. -/
def boundRules (graph node : String) (entries : List (String × Json)) : Json :=
  .obj (entries.map fun entry => (entry.1, .obj [(graph, .obj [(node, entry.2)])]))

/-- The entries of `source_event_rules`. -/
def sourceEntries : Json → Option (List (String × Json))
  | .null => some []
  | .obj entries => some entries
  | _ => none

/-- `replace_source_event_rules` -/
def replaceSourceEventRules (rules : RulesPayload) (graphId nodeId : String) (sourceEventRules : Json) :
    Except String RulesPayload :=
  let graph := pyStrip graphId
  let node := pyStrip nodeId
  if graph = "" ∨ node = "" then .error "graph_id and node_id are required"
  else
    match sourceEntries sourceEventRules with
    | none => .error "profile event_rules must be an object keyed by event"
    | some entries =>
      let (bound, errors) := compileRulesPayload (boundRules graph node entries)
      if errors ≠ [] then .error ("; ".intercalate (errors.map RuleError.message))
      else
        let output := canonicalizeRulesPayload rules
        let cleared := (output.keys.map fun event => ⟨event, graph, node⟩).foldl popNode output
        .ok (bound.entries.foldl (fun output entry =>
          match (entry.2.get? graph).bind (·.get? node) with
          | some handlers => setHandlers output ⟨entry.1, graph, node⟩ handlers
          | none => output) cleared)

/-- The rules of a profile under the names of their events; of two with one name the later ones. -/
def canonicalSourceRules (entries : List (String × Json)) : SourceEventRules :=
  .ofPairs (entries.map fun entry => (pyStrip entry.1, handlersOf entry.2))

/-- An entry with an event and a list of handlers. -/
def AcceptedEntry (entry : String × Json) : Prop :=
  pyStrip entry.1 ∈ eventNames ∧
    ∃ items, entry.2 = .arr items ∧ ∀ item ∈ items, ∃ handler, item = .obj handler

section Bound

variable {graph node : String} (isGraph : pyStrip graph = graph) (isNode : pyStrip node = node)
  (someGraph : graph ≠ "") (someNode : node ≠ "")

/-- The handlers of one source in an event. -/
def oneSource (graph node : String) (handlers : List Handler) : EventRules :=
  Mapping.empty.set graph (Mapping.empty.set node handlers)

theorem get?_oneSource (handlers : List Handler) :
    ((oneSource graph node handlers).get? graph).bind (·.get? node) = some handlers := by
  rw [oneSource, Mapping.get?_set, if_pos rfl, Option.bind_some, Mapping.get?_set, if_pos rfl]

theorem compileLevel_single {β : Type} (entry : String × Json → Option (String × β) × List RuleError)
    (raw : String × Json) :
    compileLevel entry [raw] = (.ofPairs (entry raw).1.toList, (entry raw).2) := by
  rw [compileLevel_eq, List.flatMap_singleton, List.filterMap_cons, List.filterMap_nil]
  cases (entry raw).1 with
  | none => rfl
  | some item => rfl

include isNode someNode in
theorem compileNode_bound (event : String) (handlers : Json) :
    ((compileNode event graph (node, handlers)).2 = [] ↔
      ∃ items, handlers = .arr items ∧ ∀ item ∈ items, ∃ handler, item = .obj handler) ∧
    ((compileNode event graph (node, handlers)).2 = [] →
      (compileNode event graph (node, handlers)).1 = some (node, handlersOf handlers)) := by
  unfold compileNode
  dsimp only
  rw [isNode, if_neg someNode]
  generalize "rules." ++ event ++ "." ++ graph ++ "." ++ node = path
  cases handlers with
  | arr items =>
    obtain ⟨same, errors⟩ := compileHandlers_spec path 0 items
    dsimp only
    rw [errors, same]
    refine ⟨⟨fun all => ⟨items, rfl, all⟩, ?_⟩, fun _ => rfl⟩
    rintro ⟨_, ⟨⟩, all⟩
    exact all
  | null | bool _ | num _ | str _ | obj _ =>
    refine ⟨iff_of_false (List.cons_ne_nil _ _) ?_, fun none => absurd none (List.cons_ne_nil _ _)⟩
    rintro ⟨_, ⟨⟩, _⟩

include isGraph isNode someGraph someNode

theorem compileEvent_bound (entry : String × Json) :
    ((compileEvent (entry.1, .obj [(graph, .obj [(node, entry.2)])])).2 = [] ↔ AcceptedEntry entry) ∧
    (AcceptedEntry entry → (compileEvent (entry.1, .obj [(graph, .obj [(node, entry.2)])])).1 =
      some (pyStrip entry.1, oneSource graph node (handlersOf entry.2))) := by
  obtain ⟨name, handlers⟩ := entry
  unfold compileEvent AcceptedEntry
  dsimp only
  by_cases known : pyStrip name ∈ eventNames
  · generalize pyStrip name = event at known ⊢
    obtain ⟨errors, compiled⟩ := @compileNode_bound graph node isNode someNode event handlers
    have inGraph : compileGraph event (graph, .obj [(node, handlers)]) =
        (if (Mapping.ofPairs (compileNode event graph (node, handlers)).1.toList).isEmpty then none
          else some (graph, .ofPairs (compileNode event graph (node, handlers)).1.toList),
        (compileNode event graph (node, handlers)).2) := by
      unfold compileGraph
      dsimp only
      rw [isGraph, if_neg someGraph, compileLevel_single]
    rw [if_neg (not_not_intro known), compileLevel_single, inGraph]
    dsimp only
    refine ⟨errors.trans (and_iff_right known).symm, fun accepted => ?_⟩
    rw [compiled (errors.mpr accepted.2)]
    rfl
  · rw [if_pos known]
    exact ⟨iff_of_false nofun fun both => known both.1, fun both => absurd both.1 known⟩

end Bound

theorem get?_ofPairs_map {β γ : Type} (f : β → γ) (pairs : List (String × β)) (key : String) :
    (Mapping.ofPairs (pairs.map fun pair => (pair.1, f pair.2))).get? key =
      ((Mapping.ofPairs pairs).get? key).map f := by
  unfold Mapping.ofPairs
  have loop (m : Mapping String γ) (n : Mapping String β) (same : m.get? key = (n.get? key).map f) :
      ((pairs.map fun pair => (pair.1, f pair.2)).foldl (fun m pair => m.set pair.1 pair.2) m).get? key =
        ((pairs.foldl (fun m pair => m.set pair.1 pair.2) n).get? key).map f := by
    induction pairs generalizing m n with
    | nil => exact same
    | cons pair pairs ih =>
      refine ih _ _ ?_
      rw [Mapping.get?_set, Mapping.get?_set]
      split
      · rfl
      · exact same
  exact loop _ _ rfl

/-- What the rules of a profile compile to. -/
theorem compileRulesPayload_bound {graph node : String} (isGraph : pyStrip graph = graph)
    (isNode : pyStrip node = node) (someGraph : graph ≠ "") (someNode : node ≠ "")
    (entries : List (String × Json)) :
    ((compileRulesPayload (boundRules graph node entries)).2 = [] ↔
      ∀ entry ∈ entries, AcceptedEntry entry) ∧
    ((∀ entry ∈ entries, AcceptedEntry entry) → ∀ event,
      (compileRulesPayload (boundRules graph node entries)).1.get? event =
        ((canonicalSourceRules entries).get? event).map (oneSource graph node)) := by
  have each := compileEvent_bound isGraph isNode someGraph someNode
  rw [boundRules, compileRulesPayload, compileLevel_eq, List.filterMap_map, List.flatMap_map]
  constructor
  · rw [List.flatMap_eq_nil_iff]
    exact forall₂_congr fun entry _ => (each entry).1
  · intro accepted event
    have compiled : (entries.filterMap ((fun raw => (compileEvent raw).1) ∘
        fun entry => (entry.1, Json.obj [(graph, .obj [(node, entry.2)])]))) =
        (entries.map fun entry => (pyStrip entry.1, handlersOf entry.2)).map
          fun pair => (pair.1, oneSource graph node pair.2) := by
      rw [List.map_map, ← List.filterMap_eq_map]
      refine List.filterMap_congr fun entry mem => ?_
      exact (each entry).2 (accepted entry mem)
    rw [compiled, get?_ofPairs_map]
    rfl

theorem get?_exportSourceEventRules (rules : RulesPayload) (graph node event : String) :
    (exportSourceEventRules rules graph node).get? event = handlersAt rules ⟨event, graph, node⟩ := by
  rw [exportSourceEventRules, Mapping.get?_filterMap, ← handlersAt_canonicalizeRulesPayload, handlersAt,
    Option.bind_assoc]

theorem replaceSourceEventRules_spec (rules : RulesPayload) (graphId nodeId : String) (source : Json) :
    (∀ result, replaceSourceEventRules rules graphId nodeId source = .ok result →
      ∃ entries, sourceEntries source = some entries ∧ (∀ entry ∈ entries, AcceptedEntry entry) ∧
        ∀ path, handlersAt result path =
          if path.graph = pyStrip graphId ∧ path.node = pyStrip nodeId then
            (canonicalSourceRules entries).get? path.event
          else handlersAt rules path) ∧
    (∀ entries, pyStrip graphId ≠ "" → pyStrip nodeId ≠ "" → sourceEntries source = some entries →
      (∀ entry ∈ entries, AcceptedEntry entry) →
        ∃ result, replaceSourceEventRules rules graphId nodeId source = .ok result) := by
  unfold replaceSourceEventRules
  dsimp only
  have isGraph := pyStrip_pyStrip graphId
  have isNode := pyStrip_pyStrip nodeId
  generalize pyStrip graphId = graph at isGraph ⊢
  generalize pyStrip nodeId = node at isNode ⊢
  by_cases missing : graph = "" ∨ node = ""
  · rw [if_pos missing]
    refine ⟨nofun, fun _ someGraph someNode => ?_⟩
    rcases missing with noGraph | noNode
    · exact absurd noGraph someGraph
    · exact absurd noNode someNode
  · obtain ⟨someGraph, someNode⟩ := not_or.mp missing
    rw [if_neg missing]
    cases sourceEntries source with
    | none => exact ⟨nofun, nofun⟩
    | some entries =>
      obtain ⟨errors, bound⟩ := compileRulesPayload_bound isGraph isNode someGraph someNode entries
      dsimp only
      by_cases accepted : (compileRulesPayload (boundRules graph node entries)).2 = []
      · rw [if_neg (not_not_intro accepted)]
        refine ⟨fun result isResult => ⟨entries, rfl, errors.mp accepted, fun path => ?_⟩,
          fun _ _ _ _ _ => ⟨_, rfl⟩⟩
        rw [← Except.ok.inj isResult]
        have loop := Mapping.get?_foldl (fun output event (eventRules : EventRules) =>
            match (eventRules.get? graph).bind (·.get? node) with
            | some handlers => setHandlers output ⟨event, graph, node⟩ handlers
            | none => output)
          handlersAt RulePath.event
          (fun eventRules path => if path.graph = graph ∧ path.node = node then
            (eventRules.get? graph).bind (·.get? node) else none)
          (by
            intro output event eventRules path
            obtain ⟨event', graph', node'⟩ := path
            cases (eventRules.get? graph).bind (·.get? node) with
            | none => simp
            | some handlers =>
              dsimp only
              rw [handlersAt_setHandlers]
              simp only [RulePath.mk.injEq]
              grind)
        rw [loop, handlersAt_foldl_popNode, handlersAt_canonicalizeRulesPayload,
          bound (errors.mp accepted)]
        by_cases source : path.graph = graph ∧ path.node = node
        · have emptied : (if path ∈ (canonicalizeRulesPayload rules).keys.map fun event =>
              (⟨event, graph, node⟩ : RulePath) then none else handlersAt rules path) = none := by
            split
            · rfl
            · rename_i unlisted
              have noEvent : path.event ∉ (canonicalizeRulesPayload rules).keys := by
                intro listed
                refine unlisted (List.mem_map.mpr ⟨path.event, listed, ?_⟩)
                rw [← source.1, ← source.2]
              rw [Mapping.mem_keys, Option.not_isSome_iff_eq_none] at noEvent
              rw [← handlersAt_canonicalizeRulesPayload, handlersAt, noEvent]
              rfl
          rw [emptied, Option.or_none, if_pos source]
          cases (canonicalSourceRules entries).get? path.event with
          | none => rfl
          | some handlers =>
            rw [Option.map_some, Option.bind_some, if_pos source]
            exact get?_oneSource handlers
        · have unlisted : path ∉ (canonicalizeRulesPayload rules).keys.map fun event =>
              (⟨event, graph, node⟩ : RulePath) := by
            intro listed
            obtain ⟨event, _, same⟩ := List.mem_map.mp listed
            rw [← same] at source
            exact source ⟨rfl, rfl⟩
          rw [if_neg source, if_neg unlisted]
          cases ((canonicalSourceRules entries).get? path.event).map (oneSource graph node) with
          | none => rfl
          | some eventRules => rw [Option.bind_some, if_neg source, Option.none_or]
      · rw [if_pos accepted]
        refine ⟨nofun, fun entries' _ _ same all => ?_⟩
        cases same
        exact absurd (errors.mpr all) accepted

/-! ### The laws -/

/-- Exported rules as they are passed on. -/
def sourceRulesJson (rules : SourceEventRules) : Json :=
  .obj (rules.entries.map fun entry => (entry.1, .arr (entry.2.map .obj)))

theorem handlersOf_arr (handlers : List Handler) : handlersOf (.arr (handlers.map .obj)) = handlers := by
  unfold handlersOf
  dsimp only
  rw [List.filterMap_map]
  exact List.filterMap_some

theorem pyStrip_eventName {event : String} (known : event ∈ eventNames) : pyStrip event = event := by
  simp only [eventNames, List.mem_cons, List.not_mem_nil, or_false] at known
  rcases known with rfl | rfl | rfl | rfl | rfl | rfl
  all_goals decide +kernel

theorem get?_canonicalSourceRules {rules : SourceEventRules}
    (known : ∀ entry ∈ rules.entries, entry.1 ∈ eventNames) (event : String) :
    (canonicalSourceRules (rules.entries.map fun entry =>
      (entry.1, .arr (entry.2.map .obj)))).get? event = rules.get? event := by
  have same : (rules.entries.map fun entry => (entry.1, Json.arr (entry.2.map .obj))).map
      (fun entry => (pyStrip entry.1, handlersOf entry.2)) = rules.entries := by
    rw [List.map_map]
    refine (List.map_congr_left fun entry mem => ?_).trans (List.map_id _)
    rw [Function.comp_apply, pyStrip_eventName (known entry mem), handlersOf_arr]
    rfl
  rw [canonicalSourceRules, same, Mapping.get?_ofPairs_entries]

theorem event_mem_of_canonicalSourceRules {entries : List (String × Json)}
    (accepted : ∀ entry ∈ entries, AcceptedEntry entry) {event : String}
    (there : ((canonicalSourceRules entries).get? event).isSome) : event ∈ eventNames := by
  revert event
  refine List.foldlRecOn _ _ (motive := fun m : SourceEventRules =>
    ∀ {event}, (m.get? event).isSome → event ∈ eventNames) ?_ ?_
  · intro event there
    cases there
  intro rules known pair mem event there
  obtain ⟨entry, isEntry, rfl⟩ := List.mem_map.mp mem
  rw [Mapping.get?_set] at there
  split at there
  · rename_i same
    rw [same]
    exact (accepted entry isEntry).1
  · exact known there

/-- Rules of a source that are taken out are those of the selected nodes, and put back they are as they were.
Rules that replace the rules of a source come back from an export, and the rules that were there come back
from theirs exactly when their events are supported. -/
theorem sourceRules_return :
    (∀ rules, Canonical rules → ∀ graph node,
      (∀ path, handlersAt (mergeSourceRules (removeSourceRules rules graph node).remaining
        (removeSourceRules rules graph node).removed) path = handlersAt rules path) ∧
      (∀ path, handlersAt (removeSourceRules rules graph node).removed path =
        if path.graph = graph ∧ Selects node path.node then handlersAt rules path else none) ∧
      (∀ path, handlersAt (removeSourceRules rules graph node).remaining path =
        if path.graph = graph ∧ Selects node path.node then none else handlersAt rules path) ∧
      Canonical (removeSourceRules rules graph node).remaining ∧
      Canonical (removeSourceRules rules graph node).removed ∧
      Canonical (mergeSourceRules (removeSourceRules rules graph node).remaining
        (removeSourceRules rules graph node).removed)) ∧
    ∀ rules graphId nodeId source result,
      replaceSourceEventRules rules graphId nodeId source = .ok result →
        (∃ entries, sourceEntries source = some entries ∧ ∀ event,
          (exportSourceEventRules result (pyStrip graphId) (pyStrip nodeId)).get? event =
            (canonicalSourceRules entries).get? event) ∧
        (∀ path, ¬ (path.graph = pyStrip graphId ∧ path.node = pyStrip nodeId) →
          handlersAt result path = handlersAt rules path) ∧
        ((∃ restored, replaceSourceEventRules result graphId nodeId
              (sourceRulesJson (exportSourceEventRules rules (pyStrip graphId) (pyStrip nodeId))) =
                .ok restored ∧
            ∀ path, handlersAt restored path = handlersAt rules path) ↔
          ∀ event, (handlersAt rules ⟨event, pyStrip graphId, pyStrip nodeId⟩).isSome →
            event ∈ eventNames) := by
  refine ⟨fun rules canonical graph node => ?_, fun rules graphId nodeId source result replaced => ?_⟩
  · obtain ⟨remaining, removed, left, taken⟩ := removeSourceRules_spec rules graph node
    refine ⟨fun path => ?_, removed, remaining, left canonical, taken, (left canonical).merge _⟩
    rw [handlersAt_mergeSourceRules, removed, remaining]
    split
    · exact Option.or_none
    · exact Option.none_or
  · obtain ⟨spec, accepts⟩ := replaceSourceEventRules_spec rules graphId nodeId source
    obtain ⟨entries, isEntries, -, handlers⟩ := spec result replaced
    generalize isExported : exportSourceEventRules rules (pyStrip graphId) (pyStrip nodeId) = exported
    have get (event : String) : exported.get? event =
        handlersAt rules ⟨event, pyStrip graphId, pyStrip nodeId⟩ := by
      rw [← isExported, get?_exportSourceEventRules]
    obtain ⟨spec', accepts'⟩ :=
      replaceSourceEventRules_spec result graphId nodeId (sourceRulesJson exported)
    refine ⟨⟨entries, isEntries, fun event => ?_⟩, fun path other => ?_, ?_, fun known => ?_⟩
    · rw [get?_exportSourceEventRules, handlers, if_pos ⟨rfl, rfl⟩]
    · rw [handlers, if_neg other]
    · -- what was restored stands under supported events
      rintro ⟨restored, isRestored, same⟩ event there
      obtain ⟨entries', -, accepted, handlers'⟩ := spec' restored isRestored
      rw [← same, handlers', if_pos ⟨rfl, rfl⟩] at there
      exact event_mem_of_canonicalSourceRules accepted there
    · have named : pyStrip graphId ≠ "" ∧ pyStrip nodeId ≠ "" := by
        rw [← not_or]
        intro missing
        unfold replaceSourceEventRules at replaced
        dsimp only at replaced
        rw [if_pos missing] at replaced
        cases replaced
      have knownEntries : ∀ entry ∈ exported.entries, entry.1 ∈ eventNames := by
        intro entry mem
        refine known entry.1 ?_
        rw [← get, Mapping.get?_of_mem mem]
        rfl
      have accepted : ∀ entry ∈ exported.entries.map fun entry => (entry.1, Json.arr (entry.2.map .obj)),
          AcceptedEntry entry := by
        intro entry mem
        obtain ⟨old, isOld, rfl⟩ := List.mem_map.mp mem
        refine ⟨?_, _, rfl, fun item isItem => ?_⟩
        · rw [pyStrip_eventName (knownEntries old isOld)]
          exact knownEntries old isOld
        · obtain ⟨handler, _, same⟩ := List.mem_map.mp isItem
          exact ⟨handler, same.symm⟩
      obtain ⟨restored, isRestored⟩ := accepts' _ named.1 named.2 rfl accepted
      obtain ⟨entries', same, -, handlers'⟩ := spec' restored isRestored
      cases same
      refine ⟨restored, isRestored, fun path => ?_⟩
      rw [handlers', get?_canonicalSourceRules knownEntries]
      split
      · rename_i source
        rw [get, ← source.1, ← source.2]
      · rename_i other
        rw [handlers, if_neg other]

/-- A payload with rules for an event that is not supported. -/
def unsupportedSource : RulesPayload := setHandlers .empty ⟨"OnOutput", "g", "n"⟩ []

/-- Rules of an event that is not supported do not come back from their export. -/
theorem replace_unsupported : ∃ result,
    replaceSourceEventRules unsupportedSource "g" "n" (.obj []) = .ok result ∧
      ∀ restored, replaceSourceEventRules result "g" "n"
        (sourceRulesJson (exportSourceEventRules unsupportedSource "g" "n")) ≠ .ok restored := by
  obtain ⟨result, replaced⟩ := (replaceSourceEventRules_spec unsupportedSource "g" "n" (.obj [])).2 _
    (by decide +kernel) (by decide +kernel) rfl (List.forall_mem_nil _)
  refine ⟨result, replaced, ?_⟩
  intro restored isRestored
  obtain ⟨entries, isEntries, accepted, -⟩ := (replaceSourceEventRules_spec result "g" "n" _).1 restored isRestored
  cases isEntries
  have unknown := (accepted ("OnOutput", .arr []) (by decide +kernel)).1
  revert unknown
  decide +kernel

/-- Two nodes with rules for an event. -/
def twoSources : RulesPayload :=
  setHandlers (setHandlers .empty ⟨"OnInput", "g", "n"⟩ [[("action", .str "notice.write")]])
    ⟨"OnInput", "g", "m"⟩ []

theorem canonical_twoSources : Canonical twoSources :=
  (canonical_empty.setHandlers _ _).setHandlers _ _

/-- Taken out and put back, or replaced and imported again, a source has its handlers. -/
theorem sourceRules_return_twoSources :
    (∀ path, handlersAt (mergeSourceRules (removeSourceRules twoSources "g" (some "n")).remaining
      (removeSourceRules twoSources "g" (some "n")).removed) path = handlersAt twoSources path) ∧
    ∃ result restored,
      replaceSourceEventRules twoSources "g" "n" (.obj [("ToolFailure", .arr [])]) = .ok result ∧
      replaceSourceEventRules result "g" "n" (sourceRulesJson (exportSourceEventRules twoSources "g" "n")) =
        .ok restored ∧ ∀ path, handlersAt restored path = handlersAt twoSources path := by
  have plain : pyStrip "g" = "g" ∧ pyStrip "n" = "n" := by decide +kernel
  have accepted : ∀ entry ∈ [("ToolFailure", Json.arr [])], AcceptedEntry entry := by
    intro entry mem
    rw [List.mem_singleton.mp mem]
    exact ⟨by decide +kernel, [], rfl, nofun⟩
  obtain ⟨result, replaced⟩ := (replaceSourceEventRules_spec twoSources "g" "n"
    (.obj [("ToolFailure", .arr [])])).2 _ (by decide +kernel) (by decide +kernel) rfl accepted
  have known : ∀ event, (handlersAt twoSources ⟨event, pyStrip "g", pyStrip "n"⟩).isSome →
      event ∈ eventNames := by
    intro event there
    rw [plain.1, plain.2, twoSources, handlersAt_setHandlers, handlersAt_setHandlers] at there
    simp only [RulePath.mk.injEq] at there
    split at there
    · rename_i same
      rw [same.1]
      exact List.mem_cons_self
    · split at there
      · rename_i same
        rw [same.1]
        exact List.mem_cons_self
      · cases there
  obtain ⟨restored, isRestored, back⟩ := (sourceRules_return.2 _ _ _ _ _ replaced).2.2.mpr known
  rw [plain.1, plain.2] at isRestored
  exact ⟨(sourceRules_return.1 _ canonical_twoSources "g" (some "n")).1, result, restored, replaced,
    isRestored, back⟩

end AgentPark.Events
