import AgentPark.Events.NoticeAggregation

/-!
# The store of contexts

`RuntimeEventContextStore` keeps for each node the fragments its next turn reads.  Summaries of
notices are kept one for each trace: a new one takes the place of the one that is there.
-/

namespace AgentPark.Events

open Lib

/-- `ContextArtifact`, for a summary of notices. -/
structure ContextArtifact where
  ttl : String
  priority : String
  role : String
  content : NoticeSummary
  consumed : Bool := false
  aggregationKey : String := ""
deriving DecidableEq

/-- The artifact `upsert_fragment` updates is the first that is not consumed; else it adds one. -/
def upsertItems (ttl priority role : String) (content : NoticeSummary) (key : String) :
    List ContextArtifact → List ContextArtifact
  | [] => [{ ttl, priority, role, content, aggregationKey := key }]
  | item :: items =>
    if item.aggregationKey = key ∧ ¬ item.consumed then
      { item with ttl, priority, role, content } :: items
    else item :: upsertItems ttl priority role content key items

/-- `upsert_fragment`; `none` is its `ValueError`. -/
def upsertFragment (items : List ContextArtifact) (ttl priority role : String)
    (content : NoticeSummary) (aggregationKey : String) : Option (List ContextArtifact) :=
  let key := pyStrip aggregationKey
  if pyStrip content.text = "" ∨ key = "" then none
  else some (upsertItems ttl priority role content key items)

/-- The loop of `consume_for_node`: what remains and what is taken. -/
def consumeItems (includeCurrentRun : Bool) :
    List ContextArtifact → List ContextArtifact × List ContextArtifact
  | [] => ([], [])
  | item :: items =>
    let (remaining, output) := consumeItems includeCurrentRun items
    if item.ttl = "current_run" ∧ ¬ includeCurrentRun then (item :: remaining, output)
    else if item.ttl = "persistent" then (item :: remaining, item :: output)
    else if item.consumed then (remaining, output)
    else (remaining, { item with consumed := true } :: output)

/-- `priority_order.get(priority, 1)` -/
def priorityOrder (priority : String) : Nat :=
  if priority = "high" then 0 else if priority = "low" then 2 else 1

/-- `consume_for_node`: what remains, and the fragments a turn reads. -/
def consumeForNode (items : List ContextArtifact) (includeCurrentRun : Bool) :
    List ContextArtifact × List (String × NoticeSummary) :=
  let (remaining, output) := consumeItems includeCurrentRun items
  let output := output.mergeSort fun left right =>
    decide (priorityOrder left.priority ≤ priorityOrder right.priority)
  (remaining, output.map fun item => (item.role, item.content))

/-! ### Summaries for the next turn -/

/-- An artifact as the notices of a node make it. -/
structure ContextArtifact.ForNextTurn (node : NodeKey) (item : ContextArtifact) : Prop where
  ttl : item.ttl = "next_turn"
  fresh : item.consumed = false
  key : item.aggregationKey = item.content.key.aggregationKey
  node : item.content.key.node = node

theorem upsertFragment_eq (items : List ContextArtifact) (ttl priority role : String)
    (content : NoticeSummary) :
    upsertFragment items ttl priority role content content.key.aggregationKey =
      some (upsertItems ttl priority role content content.key.aggregationKey items) := by
  have written : ¬ (pyStrip content.text = "" ∨ pyStrip content.key.aggregationKey = "") := by
    rw [content.pyStrip_text, content.key.pyStrip_aggregationKey, not_or]
    exact ⟨content.text_ne_empty, content.key.aggregationKey_ne_empty⟩
  rw [upsertFragment, content.key.pyStrip_aggregationKey]
  rw [content.key.pyStrip_aggregationKey] at written
  exact if_neg written

variable {priority role : String} {content : NoticeSummary} {node : NodeKey}
variable {items : List ContextArtifact}

/-- A summary takes the place of the one with its key. -/
theorem upsertItems_of_mem {ttl : String} (isNode : content.key.node = node)
    (all : ∀ item ∈ items, item.ForNextTurn node) {item : ContextArtifact} (mem : item ∈ items)
    (same : item.content.key = content.key) :
    ∃ front old back, items = front ++ old :: back ∧ old.content.key = content.key ∧
      upsertItems ttl priority role content content.key.aggregationKey items =
        front ++ { old with ttl, priority, role, content } :: back := by
  induction items with
  | nil => cases mem
  | cons first items ih =>
    have isFirst := all first List.mem_cons_self
    by_cases here : first.content.key = content.key
    · refine ⟨[], first, items, rfl, here, ?_⟩
      have found : first.aggregationKey = content.key.aggregationKey ∧ ¬ first.consumed := by
        rw [isFirst.key, here, isFirst.fresh]
        exact ⟨rfl, Bool.false_ne_true⟩
      rw [upsertItems, if_pos found]
      rfl
    · have later : item ∈ items := by
        rcases List.mem_cons.mp mem with rfl | later
        · exact absurd same here
        · exact later
      obtain ⟨front, old, back, isItems, isOld, isResult⟩ :=
        ih (fun other mem => all other (List.mem_cons_of_mem first mem)) later
      refine ⟨first :: front, old, back, by rw [isItems]; rfl, isOld, ?_⟩
      have other : ¬ (first.aggregationKey = content.key.aggregationKey ∧ ¬ first.consumed) := by
        rintro ⟨sameKey, -⟩
        rw [isFirst.key] at sameKey
        exact here (TraceKey.aggregationKey_injective (isFirst.node.trans isNode.symm) sameKey)
      rw [upsertItems, if_neg other, isResult]
      rfl

/-- A summary with a new key goes to the end. -/
theorem upsertItems_of_absent {ttl : String} (isNode : content.key.node = node)
    (all : ∀ item ∈ items, item.ForNextTurn node)
    (absent : ∀ item ∈ items, item.content.key ≠ content.key) :
    upsertItems ttl priority role content content.key.aggregationKey items = items ++
      [{ ttl, priority, role, content, aggregationKey := content.key.aggregationKey }] := by
  induction items with
  | nil => rfl
  | cons first items ih =>
    have isFirst := all first List.mem_cons_self
    have other : ¬ (first.aggregationKey = content.key.aggregationKey ∧ ¬ first.consumed) := by
      rintro ⟨sameKey, -⟩
      rw [isFirst.key] at sameKey
      exact absent first List.mem_cons_self
        (TraceKey.aggregationKey_injective (isFirst.node.trans isNode.symm) sameKey)
    rw [upsertItems, if_neg other, ih (fun item mem => all item (List.mem_cons_of_mem first mem))
      fun item mem => absent item (List.mem_cons_of_mem first mem)]
    rfl

theorem mem_upsertItems (isNode : content.key.node = node)
    (all : ∀ item ∈ items, item.ForNextTurn node)
    (traces : (items.map fun item => item.content.key).Nodup) (item : ContextArtifact) :
    item ∈ upsertItems "next_turn" priority role content content.key.aggregationKey items ↔
      item = ⟨"next_turn", priority, role, content, false, content.key.aggregationKey⟩ ∨
        item ∈ items ∧ item.content.key ≠ content.key := by
  by_cases there : ∃ old ∈ items, old.content.key = content.key
  · obtain ⟨old, mem, same⟩ := there
    obtain ⟨front, first, back, rfl, isFirst, isResult⟩ :=
      @upsertItems_of_mem priority role _ _ _ "next_turn" isNode all _ mem same
    have made := all first (List.mem_append_right front List.mem_cons_self)
    have new : ({ first with ttl := "next_turn", priority, role, content } : ContextArtifact) =
        ⟨"next_turn", priority, role, content, false, content.key.aggregationKey⟩ := by
      rw [made.fresh, made.key, isFirst]
    rw [isResult, new]
    rw [List.map_append, List.map_cons, List.nodup_append, List.nodup_cons] at traces
    obtain ⟨-, ⟨notBack, -⟩, apart⟩ := traces
    constructor
    · intro isItem
      rcases List.mem_append.mp isItem with inFront | inRest
      · refine Or.inr ⟨List.mem_append_left _ inFront, ?_⟩
        rw [← isFirst]
        exact apart _ (List.mem_map_of_mem inFront) _ List.mem_cons_self
      · rcases List.mem_cons.mp inRest with rfl | inBack
        · exact Or.inl rfl
        · refine Or.inr ⟨List.mem_append_right _ (List.mem_cons_of_mem _ inBack), ?_⟩
          rw [← isFirst]
          exact fun sameKey => notBack (List.mem_map.mpr ⟨item, inBack, sameKey⟩)
    · rintro (rfl | ⟨isItem, other⟩)
      · exact List.mem_append_right front List.mem_cons_self
      · rcases List.mem_append.mp isItem with inFront | inRest
        · exact List.mem_append_left _ inFront
        · rcases List.mem_cons.mp inRest with rfl | inBack
          · exact absurd isFirst other
          · exact List.mem_append_right _ (List.mem_cons_of_mem _ inBack)
  · have absent : ∀ old ∈ items, old.content.key ≠ content.key :=
      fun old mem same => there ⟨old, mem, same⟩
    rw [upsertItems_of_absent isNode all absent, List.mem_append, List.mem_singleton, or_comm]
    refine or_congr_right ?_
    exact ⟨fun mem => ⟨mem, absent item mem⟩, fun both => both.1⟩

theorem nodup_upsertItems (isNode : content.key.node = node)
    (all : ∀ item ∈ items, item.ForNextTurn node)
    (traces : (items.map fun item => item.content.key).Nodup) :
    ((upsertItems "next_turn" priority role content content.key.aggregationKey items).map
      fun item => item.content.key).Nodup := by
  by_cases there : ∃ old ∈ items, old.content.key = content.key
  · obtain ⟨old, mem, same⟩ := there
    obtain ⟨front, first, back, rfl, isFirst, isResult⟩ :=
      @upsertItems_of_mem priority role _ _ _ "next_turn" isNode all _ mem same
    rw [List.map_append, List.map_cons, isFirst] at traces
    rw [isResult, List.map_append, List.map_cons]
    exact traces
  · have absent : ∀ old ∈ items, old.content.key ≠ content.key :=
      fun old mem same => there ⟨old, mem, same⟩
    rw [upsertItems_of_absent isNode all absent, List.map_append, List.nodup_append]
    refine ⟨traces, List.nodup_singleton _, ?_⟩
    intro key mem key' isNew
    obtain ⟨old, isOld, rfl⟩ := List.mem_map.mp mem
    rw [List.map_singleton, List.mem_singleton] at isNew
    rw [isNew]
    exact absent old isOld

/-- A turn takes all that was kept for it. -/
theorem consumeItems_nextTurn (all : ∀ item ∈ items, item.ForNextTurn node)
    (includeCurrentRun : Bool) :
    consumeItems includeCurrentRun items =
      ([], items.map fun item => { item with consumed := true }) := by
  induction items with
  | nil => rfl
  | cons item items ih =>
    have isItem := all item List.mem_cons_self
    have notCurrent : ¬ (item.ttl = "current_run" ∧ ¬ includeCurrentRun) := by
      rw [isItem.ttl]
      exact fun both => absurd both.1 (by decide)
    have notPersistent : item.ttl ≠ "persistent" := by
      rw [isItem.ttl]
      decide
    rw [consumeItems, ih fun other mem => all other (List.mem_cons_of_mem item mem)]
    dsimp only
    rw [if_neg notCurrent, if_neg notPersistent, isItem.fresh]
    rfl

theorem consumeForNode_nextTurn (all : ∀ item ∈ items, item.ForNextTurn node)
    (includeCurrentRun : Bool) :
    (consumeForNode items includeCurrentRun).1 = [] ∧
      ((consumeForNode items includeCurrentRun).2.map Prod.snd).Perm
        (items.map ContextArtifact.content) := by
  rw [consumeForNode, consumeItems_nextTurn all]
  refine ⟨rfl, ?_⟩
  dsimp only
  rw [List.map_map]
  have sorted := (List.mergeSort_perm (items.map fun item => { item with consumed := true })
    fun left right => decide (priorityOrder left.priority ≤ priorityOrder right.priority))
  have contents := sorted.map ContextArtifact.content
  rw [List.map_map] at contents
  exact contents

end AgentPark.Events
