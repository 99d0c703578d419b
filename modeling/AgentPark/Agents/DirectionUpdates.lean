import AgentPark.Agents.TaskDirection
import AgentPark.Gateway.Contracts
import AgentPark.Lib.Execution

/-!
# Updating and completing a task direction

The first `replace` stores a state.  An update appends evidence, and sets or appends hypotheses, risks
and criteria; a completion appends evidence and resolves items.  Both edit the payload of the current
state, and the result goes through `from_payload` again.
-/

namespace AgentPark.Agents

open Lib

abbrev Fields := List (String × Json)

/-! ### The two reducers -/

/-- `_objects` -/
def objects (value : Option Json) (label : String) : Except String (List Fields) :=
  match value with
  | some (.arr items) =>
    parseEach (fun index item => match item with
      | .obj fields => .ok fields
      | _ => .error (label ++ "[" ++ index.repr ++ "] must be an object")) 0 items
  | _ => .error (label ++ " must be an array")

/-- The payloads of the items, each under its id. -/
def entries {κ σ : Type} (kind : ItemKind κ σ) (items : List (DirectionItem κ σ)) :
    List (String × Fields) :=
  items.map fun item => (item.id, item.fields kind)

section

variable (repr : Json → String) {κ σ : Type}

/-- `_unique_ids` of an update and `_unique_item_ids` of a completion -/
def uniqueItemIds (items : List Fields) (label : String) : Except String (List String) :=
  let ids := items.map fun item => strippedText repr (item.lookup "id")
  match ids.findIdx? fun id => id = "" with
  | some index => .error (label ++ "[" ++ index.repr ++ "].id is required")
  | none => do
    uniqueIds ids label
    return ids

/-- `_append_new_evidence`, which a completion does as well. -/
def appendNewEvidence (label : String) (current : List DirectionEvidence) (additions : List Fields) :
    Except String (List Fields × List String) := do
  let additionIds ← uniqueItemIds repr additions label
  require (∀ id ∈ additionIds, id ∉ current.map DirectionEvidence.id)
    (label ++ " reuses existing ids: " ++
      joined (additionIds.filter fun id => id ∈ current.map DirectionEvidence.id))
  return (current.map DirectionEvidence.fields ++ additions, additionIds)

/-- A turn of the loop of `_upsert_items`. -/
def upsertItem (kind : ItemKind κ σ) (label : String) (current : List (String × Fields)) (id : String)
    (update : Fields) : Except String (List (String × Fields)) :=
  match current.lookup id with
  | none => .ok (dictSet current id update)
  | some fields =>
    if Json.pyEq (.obj fields) (.obj update) = true then
      .error (label ++ " does not change existing id " ++ id)
    else
      match kind.immutable.find? fun field =>
          !Json.pyEq ((update.lookup field).getD .null) ((fields.lookup field).getD .null) with
      | some field => .error (label ++ "." ++ field ++ " cannot change for existing id " ++ id)
      | none =>
        let currentStatus := Json.strOr repr "" (fields.lookup "status")
        let nextStatus := Json.strOr repr "" (update.lookup "status")
        if (∃ a ∈ kind.statuses.all, kind.terminal a = true ∧ kind.statuses.text a = currentStatus) ∧
            nextStatus ≠ currentStatus then
          .error (label ++ ".status cannot change terminal status " ++ currentStatus ++
            " for existing id " ++ id)
        else .ok (dictSet current id update)

/-- The loop of `_upsert_items`. -/
def upsertEach (kind : ItemKind κ σ) (label : String) :
    Nat → List (String × Fields) → List Fields → Except String (List (String × Fields))
  | _, current, [] => .ok current
  | index, current, update :: updates => do
    let current ← upsertItem repr kind (label ++ "[" ++ index.repr ++ "]") current
      (strippedText repr (update.lookup "id")) update
    upsertEach kind label (index + 1) current updates

/-- `_upsert_items` -/
def upsertItems (kind : ItemKind κ σ) (label : String) (items : List (DirectionItem κ σ))
    (updates : List Fields) : Except String (List Fields × List String) := do
  let updateIds ← uniqueItemIds repr updates label
  let current ← upsertEach repr kind label 0 (entries kind items) updates
  return (current.map Prod.snd, updateIds)

/-- `TaskDirectionUpdate` -/
structure TaskDirectionUpdate where
  state : TaskDirectionState
  addedEvidenceIds : List String
  changedHypothesisIds : List String
  changedRiskIds : List String
  changedCriterionIds : List String

/-- `TaskDirectionUpdate.from_payload` -/
def TaskDirectionUpdate.fromPayload (payload : Json) (currentState : TaskDirectionState) :
    Except String TaskDirectionUpdate := do
  match payload with
  | .obj fields =>
    rejectUnknownKeys fields ["evidence", "hypotheses", "risks", "criteria"] "task direction update"
    let evidence ← objects (fields.lookup "evidence") "task direction update.evidence"
    let hypotheses ← objects (fields.lookup "hypotheses") "task direction update.hypotheses"
    let risks ← objects (fields.lookup "risks") "task direction update.risks"
    let criteria ← objects (fields.lookup "criteria") "task direction update.criteria"
    require (evidence ≠ [] ∨ hypotheses ≠ [] ∨ risks ≠ [] ∨ criteria ≠ [])
      "task direction update must contain at least one change"
    let (evidence, addedEvidenceIds) ← appendNewEvidence repr "task direction update.evidence"
      currentState.evidence evidence
    let (hypotheses, changedHypothesisIds) ← upsertItems repr hypothesisKind
      "task direction update.hypotheses" currentState.hypotheses hypotheses
    let (risks, changedRiskIds) ← upsertItems repr riskKind "task direction update.risks"
      currentState.unresolvedRisks risks
    let (criteria, changedCriterionIds) ← upsertItems repr criterionKind
      "task direction update.criteria" currentState.doneCriteria criteria
    let state ← TaskDirectionState.fromPayload repr
      (statePayload currentState.objective hypotheses evidence risks criteria)
    return { state, addedEvidenceIds, changedHypothesisIds, changedRiskIds, changedCriterionIds }
  | _ => .error "task direction update must be an object"

end

/-- What the operations raise: `TaskDirectionContractError`, `TaskDirectionRevisionConflict`, the
`AnalysisReportContractError` of the caller, and a `KeyError`. -/
inductive DirectionError where
  | contract (text : String)
  | conflict (text : String)
  | report (text : String)
  | key (key : String)
deriving DecidableEq

/-- A part that raises `TaskDirectionContractError` only. -/
def contract {β : Type} (x : Except String β) : Except DirectionError β := x.mapError .contract

section

variable (repr : Json → String)

/-- A turn of the loop of `_apply_resolutions`.  The id, which is there, is not stripped here. -/
def resolveItem (label : String) (allowedStatuses : List String) (current : List (String × Fields))
    (resolution : Fields) : Except DirectionError (List (String × Fields)) := do
  contract (rejectUnknownKeys resolution ["id", "status", "evidence_ids"] label)
  let status := strippedText repr (resolution.lookup "status")
  contract (require (status ∈ allowedStatuses)
    (label ++ ".status must be one of: " ++ joined allowedStatuses))
  match resolution.lookup "evidence_ids" with
  | some (.arr evidenceIds) =>
    let id := Json.strOr repr "" (resolution.lookup "id")
    match current.lookup id with
    | none => .error (.key id)
    | some fields =>
      return dictSet current id
        (dictSet (dictSet fields "status" (.str status)) "evidence_ids" (.arr evidenceIds))
  | _ => .error (.contract (label ++ ".evidence_ids must be an array"))

/-- The loop of `_apply_resolutions`. -/
def resolveEach (label : String) (allowedStatuses : List String) :
    Nat → List (String × Fields) → List Fields → Except DirectionError (List (String × Fields))
  | _, current, [] => .ok current
  | index, current, resolution :: resolutions => do
    let current ← resolveItem repr (label ++ "[" ++ index.repr ++ "]") allowedStatuses current resolution
    resolveEach label allowedStatuses (index + 1) current resolutions

/-- The ids that a completion has to resolve. -/
def requireIds (label : String) (requiredIds resolutionIds : List String) : Except String Unit :=
  let missing := requiredIds.filter fun id => id ∉ resolutionIds
  let unexpected := resolutionIds.filter fun id => id ∉ requiredIds
  require (missing = [] ∧ unexpected = [])
    (label ++ " must resolve every pending criterion; " ++ "; ".intercalate
      ((if missing = [] then [] else ["missing pending ids: " ++ joined missing]) ++
        (if unexpected = [] then [] else ["already resolved ids: " ++ joined unexpected]) ++
        ["required pending ids: " ++ joined requiredIds]))

/-- `_apply_resolutions` -/
def applyResolutions (label : String) (allowedStatuses : List String)
    (requiredIds : Option (List String)) (current : List (String × Fields)) (resolutions : List Fields) :
    Except DirectionError (List Fields) := do
  let resolutionIds ← contract (uniqueItemIds repr resolutions label)
  let validIds := current.map Prod.fst
  contract (require (∀ id ∈ resolutionIds, id ∈ validIds)
    (label ++ " references unknown ids: " ++ joined (resolutionIds.filter fun id => id ∉ validIds) ++
      "; valid ids: " ++ if validIds = [] then "(none)" else joined validIds))
  contract (match requiredIds with
    | some requiredIds => requireIds label requiredIds resolutionIds
    | none => .ok ())
  let current ← resolveEach repr label allowedStatuses 0 current resolutions
  return current.map Prod.snd

/-- `TaskDirectionCompletion` -/
structure TaskDirectionCompletion where
  expectedRevision : Nat
  state : TaskDirectionState

/-- An `expected_revision` that is a positive integer. -/
def positiveRevision (expectedRevision : Option Int) (fieldName : String) : Except String Nat :=
  match expectedRevision with
  | some (.ofNat (n + 1)) => .ok (n + 1)
  | _ => .error (fieldName ++ " must be a positive integer")

/-- `TaskDirectionCompletion.from_payload` -/
def TaskDirectionCompletion.fromPayload (payload : Json) (currentState : TaskDirectionState) :
    Except DirectionError TaskDirectionCompletion := do
  match payload with
  | .obj fields =>
    contract (rejectUnknownKeys fields
      ["expected_revision", "evidence", "hypotheses", "risks", "criteria"] "direction_completion")
    let expectedRevision ← contract (positiveRevision
      ((fields.lookup "expected_revision").bind Gateway.asInt)
      "direction_completion.expected_revision")
    let additions ← contract (objects (fields.lookup "evidence") "direction_completion.evidence")
    let (evidence, _) ← contract (appendNewEvidence repr "direction_completion.evidence"
      currentState.evidence additions)
    let hypotheses ← contract (objects (fields.lookup "hypotheses") "direction_completion.hypotheses")
    let hypotheses ← applyResolutions repr "direction_completion.hypotheses"
      ["confirmed", "rejected"] none (entries hypothesisKind currentState.hypotheses) hypotheses
    let risks ← contract (objects (fields.lookup "risks") "direction_completion.risks")
    let risks ← applyResolutions repr "direction_completion.risks" ["resolved"] none
      (entries riskKind currentState.unresolvedRisks) risks
    let pendingCriteria := (currentState.doneCriteria.filter fun item =>
      item.status = .pending).map DirectionItem.id
    let criteria ← contract (objects (fields.lookup "criteria") "direction_completion.criteria")
    let criteria ← applyResolutions repr "direction_completion.criteria" ["met", "blocked"]
      (some pendingCriteria) (entries criterionKind currentState.doneCriteria) criteria
    let state ← contract (TaskDirectionState.fromPayload repr
      (statePayload currentState.objective hypotheses evidence risks criteria))
    return { expectedRevision, state }
  | _ => .error (.contract "direction_completion must be an object")

end

/-! ### The store -/

/-- The `status` of a direction. -/
inductive DirectionStatus where
  | active
  | completed
deriving DecidableEq

/-- `StoredTaskDirection`, of one task. -/
structure StoredTaskDirection where
  status : DirectionStatus
  revision : Nat
  state : TaskDirectionState
deriving DecidableEq

/-- The content of `task_direction.json`. -/
structure DirectionDocument where
  status : DirectionStatus
  revision : Nat
  state : Json
deriving DecidableEq

/-- `to_payload` of a stored direction -/
def StoredTaskDirection.document (stored : StoredTaskDirection) : DirectionDocument where
  status := stored.status
  revision := stored.revision
  state := stored.state.toPayload

/-- The operations: those of the store, and the completion of a final report. -/
inductive DirectionOp where
  | replace (expectedRevision : Option Int) (state : Json)
  | update (expectedRevision : Option Int) (update : Json)
  | complete (expectedRevision : Option Int)
  | finalize (directionCompletion : Json)

section

variable (repr : Json → String)

/-- `read` -/
def readDirection (document : Option DirectionDocument) : Except DirectionError (Option StoredTaskDirection) :=
  match document with
  | none => .ok none
  | some { status, revision, state } => do
    let state ← contract (TaskDirectionState.fromPayload repr state)
    return some { status, revision, state }

def revisionConflict (expected current : Nat) : DirectionError :=
  .conflict ("task direction revision conflict: expected " ++ expected.repr ++ ", current " ++ current.repr)

/-- What an operation returns, and whether it has written that. -/
abbrev Performed := Except DirectionError (StoredTaskDirection × Bool)

/-- `replace` -/
def replaceDirection (document : Option DirectionDocument) (expectedRevision : Option Int) (state : Json) :
    Performed := do
  match expectedRevision with
  | some (.ofNat expected) =>
    let parsedState ← contract (TaskDirectionState.fromPayload repr state)
    match ← readDirection repr document with
    | some current =>
      if current.revision ≠ expected then .error (revisionConflict expected current.revision)
      else if current.status = .completed then
        .error (.contract "completed task direction cannot be replaced")
      else
        .error (.contract "task direction is already initialized; use an incremental update")
    | none =>
      if expected ≠ 0 then .error (revisionConflict expected 0)
      else return ({ status := .active, revision := 1, state := parsedState }, true)
  | _ => .error (.contract "expected_revision must be a non-negative integer")

/-- `update` -/
def updateDirection (document : Option DirectionDocument) (expectedRevision : Option Int) (update : Json) :
    Performed := do
  let expected ← contract (positiveRevision expectedRevision "expected_revision")
  match ← readDirection repr document with
  | none => .error (.contract "task direction must be initialized before update")
  | some current =>
    if current.revision ≠ expected then .error (revisionConflict expected current.revision)
    else if current.status = .completed then
      .error (.contract "completed task direction cannot be updated")
    else
      let parsedUpdate ← contract (TaskDirectionUpdate.fromPayload repr update current.state)
      return ({ status := .active, revision := current.revision + 1, state := parsedUpdate.state }, true)

/-- `complete_with_state` -/
def completeWithState (document : Option DirectionDocument) (expectedRevision : Option Int)
    (state : Option Json) : Performed := do
  let expected ← contract (positiveRevision expectedRevision "expected_revision")
  let parsedState ← match state with
    | none => pure none
    | some state => some <$> contract (TaskDirectionState.fromPayload repr state)
  match ← readDirection repr document with
  | none => .error (.contract "task direction must be initialized before completion")
  | some current =>
    if current.revision ≠ expected then .error (revisionConflict expected current.revision)
    else if current.status = .completed then
      if ∀ parsed ∈ parsedState, current.state = parsed then return (current, false)
      else
        .error (.contract "completed task direction cannot be replaced during completion")
    else
      return ({
        status := .completed
        revision := current.revision + 1
        state := parsedState.getD current.state }, true)

/-- What `finalize_analysis_report` does with the direction. -/
def finalizeDirection (document : Option DirectionDocument) (directionCompletion : Json) : Performed := do
  match ← readDirection repr document with
  | none => .error (.report "final report requires an initialized task direction state")
  | some direction =>
    let completion ← TaskDirectionCompletion.fromPayload repr directionCompletion direction.state
    if completion.expectedRevision ≠ direction.revision then
      .error (.report ("direction_completion.expected_revision does not match the current task direction: supplied=" ++
        completion.expectedRevision.repr ++ ", expected=" ++ direction.revision.repr))
    else
      completeWithState repr document (some completion.expectedRevision)
        (some completion.state.toPayload)

/-- An operation of the store. -/
def perform (document : Option DirectionDocument) : DirectionOp → Performed
  | .replace expectedRevision state => replaceDirection repr document expectedRevision state
  | .update expectedRevision update => updateDirection repr document expectedRevision update
  | .complete expectedRevision => completeWithState repr document expectedRevision none
  | .finalize directionCompletion => finalizeDirection repr document directionCompletion

/-- An operation on the document; one that raises leaves it. -/
def directionStep (document : Option DirectionDocument) (op : DirectionOp) :
    Option (Option DirectionDocument) :=
  match perform repr document op with
  | .ok (stored, true) => some (some stored.document)
  | _ => some document

end

/-! ### What the reducers keep of an item -/

theorem contract_eq_ok {β : Type} {x : Except String β} {b : β} : contract x = .ok b ↔ x = .ok b := by
  cases x with
  | error e => exact ⟨nofun, nofun⟩
  | ok a => exact Iff.rfl.trans ⟨fun h => by cases h; rfl, fun h => by cases h; rfl⟩

/-- The entries follow the items: each one is under the id of its item, and new ones are behind. -/
def Tracks {κ σ : Type} (R : DirectionItem κ σ → Fields → Prop) (items : List (DirectionItem κ σ))
    (current : List (String × Fields)) : Prop :=
  ∃ front back, current = front ++ back ∧
    List.Forall₂ (fun item entry => entry.1 = item.id ∧ R item entry.2) items front

section

variable {repr : Json → String} {κ σ : Type} {kind : ItemKind κ σ}
  {R : DirectionItem κ σ → Fields → Prop} {items : List (DirectionItem κ σ)}
  {current : List (String × Fields)}

theorem tracks_entries (start : ∀ item ∈ items, R item (item.fields kind)) :
    Tracks R items (entries kind items) := by
  refine ⟨entries kind items, [], (List.append_nil _).symm, ?_⟩
  induction items with
  | nil => exact .nil
  | cons item items ih =>
    exact .cons ⟨rfl, start item List.mem_cons_self⟩
      (ih fun other mem => start other (List.mem_cons_of_mem item mem))

theorem forall₂_map_right {S : DirectionItem κ σ → String × Fields → Prop} {front : List (String × Fields)}
    {g : String × Fields → String × Fields} (follows : List.Forall₂ S items front)
    (keep : ∀ item ∈ items, ∀ entry ∈ front, S item entry → S item (g entry)) :
    List.Forall₂ S items (front.map g) := by
  induction follows with
  | nil => exact .nil
  | @cons item entry items front here _ ih =>
    exact .cons (keep item List.mem_cons_self entry List.mem_cons_self here)
      (ih fun other mem e isEntry =>
        keep other (List.mem_cons_of_mem item mem) e (List.mem_cons_of_mem entry isEntry))

theorem tracks_dictSet (tracks : Tracks R items current) (nodup : (current.map Prod.fst).Nodup)
    {id : String} {value : Fields}
    (keep : ∀ item ∈ items, item.id = id → ∀ fields, current.lookup id = some fields → R item fields →
      R item value) : Tracks R items (dictSet current id value) := by
  obtain ⟨front, back, isCurrent, follows⟩ := tracks
  have set : List.Forall₂ (fun item entry => entry.1 = item.id ∧ R item entry.2) items
      (front.map fun entry => if entry.1 = id then (id, value) else entry) := by
    refine forall₂_map_right follows fun item mem entry isEntry here => ?_
    rcases em (entry.1 = id) with same | other
    · have inCurrent : entry ∈ current := isCurrent ▸ List.mem_append_left back isEntry
      have found := lookup_of_mem nodup inCurrent
      rw [same] at found
      rw [if_pos same]
      exact ⟨same.symm.trans here.1, keep item mem (here.1.symm.trans same) entry.2 found here.2⟩
    · rw [if_neg other]
      exact here
  unfold dictSet
  split
  next =>
    exact ⟨_, back.map fun entry => if entry.1 = id then (id, value) else entry,
      by rw [isCurrent, List.map_append], set⟩
  next =>
    exact ⟨front, back ++ [(id, value)], by rw [isCurrent, List.append_assoc], follows⟩

/-- What is kept of an item while its payload is edited. -/
structure Keeps (kind : ItemKind κ σ) (item : DirectionItem κ σ) (fields : Fields) : Prop where
  severity : "severity" ∈ kind.keys →
    fields.lookup "severity" = some (.str (kind.severities.text item.severity))
  statement : fields.lookup "statement" = some (.str item.statement)

theorem keeps_fields (item : DirectionItem κ σ) : Keeps kind item (item.fields kind) := by
  obtain ⟨-, severity, statement, -, -⟩ := @lookup_fields _ _ kind item
  exact ⟨fun inKeys => by rw [severity, if_pos inKeys], statement⟩

variable {item : DirectionItem κ σ} {fields : Fields}

theorem readsItem_of_keeps {item' : DirectionItem κ σ} (keeps : Keeps kind item fields)
    (isText : IsText maxItemStatementChars item.statement)
    (reads : ReadsItem repr kind fields item') :
    item'.severity = item.severity ∧ item'.statement = item.statement := by
  constructor
  · refine kind.severities.text_injective _ _ ?_
    rcases em ("severity" ∈ kind.keys) with inKeys | missing
    · rw [← reads.severity, keeps.severity inKeys, strippedText_str, kind.severities.text_stripped]
    · rw [kind.severity_empty missing, kind.severity_empty missing]
  · obtain ⟨raw, isRaw, same⟩ := reads.statement
    rw [keeps.statement] at isRaw
    cases isRaw
    rw [← same, isText.stripped]

/-! ### An update -/

/-- What an update keeps of an item. -/
structure Updates (repr : Json → String) (kind : ItemKind κ σ) (item : DirectionItem κ σ) (fields : Fields) :
    Prop where
  keeps : Keeps kind item fields
  id : strippedText repr (fields.lookup "id") = item.id
  status : kind.terminal item.status = true →
    Json.strOr repr "" (fields.lookup "status") = kind.statuses.text item.status

theorem updates_fields (isId : isIdentifier item.id = true) :
    Updates repr kind item (item.fields kind) := by
  obtain ⟨id, -, -, status, -⟩ := @lookup_fields _ _ kind item
  exact ⟨keeps_fields item, by rw [id, strippedText_str, pyStrip_of_isIdentifier isId],
    fun _ => by rw [status, strOr_str]⟩

theorem getD_of_pyEq_str {value : Option Json} {text : String}
    (same : Json.pyEq (value.getD .null) (.str text) = true) : value = some (.str text) := by
  cases value with
  | none => cases same
  | some v =>
    cases v with
    | str other =>
      have : Json.str other = Json.str text := by simpa [Json.pyEq] using same
      rw [this]
    | _ => simp [Json.pyEq] at same

variable {label : String} {next : List (String × Fields)}

theorem upsertItem_eq_ok {id : String} {update : Fields}
    (isId : strippedText repr (update.lookup "id") = id)
    (upserted : upsertItem repr kind label current id update = .ok next) :
    next = dictSet current id update ∧ ∀ item fields, item.id = id → current.lookup id = some fields →
      Updates repr kind item fields → Updates repr kind item update := by
  unfold upsertItem at upserted
  split at upserted
  next absent =>
    cases upserted
    refine ⟨rfl, fun item fields _ found => ?_⟩
    rw [absent] at found
    cases found
  next own found =>
    rw [ite_error_eq_ok] at upserted
    obtain ⟨-, upserted⟩ := upserted
    split at upserted
    next => cases upserted
    next unchanged =>
      obtain ⟨notTerminal, same⟩ := ite_error_eq_ok.mp upserted
      cases same
      refine ⟨rfl, fun item fields isItem isOwn updates => ?_⟩
      rw [found] at isOwn
      cases isOwn
      have immutable (field : String) (mem : field ∈ kind.immutable) :
          Json.pyEq ((update.lookup field).getD .null) ((own.lookup field).getD .null) = true := by
        have := List.find?_eq_none.mp unchanged field mem
        simpa using this
      refine ⟨⟨fun inKeys => ?_, ?_⟩, isId.trans isItem.symm, fun terminal => ?_⟩
      · have same := immutable "severity" (kind.severity_immutable inKeys)
        rw [updates.keeps.severity inKeys] at same
        exact getD_of_pyEq_str same
      · have same := immutable "statement" kind.statement_immutable
        rw [updates.keeps.statement] at same
        exact getD_of_pyEq_str same
      · have isText := updates.status terminal
        rw [← isText]
        by_contra changed
        exact notTerminal ⟨⟨item.status, kind.statuses.mem_all _, terminal, isText.symm⟩, changed⟩

variable {index limit : Nat}

theorem upsertEach_eq_ok {updates : List Fields} (tracks : Tracks (Updates repr kind) items current)
    (nodup : (current.map Prod.fst).Nodup)
    (upserted : upsertEach repr kind label index current updates = .ok next) :
    Tracks (Updates repr kind) items next := by
  induction updates generalizing index current with
  | nil =>
    cases upserted
    exact tracks
  | cons update updates ih =>
    obtain ⟨between, first, rest⟩ := bind_eq_ok.mp upserted
    obtain ⟨rfl, keep⟩ := upsertItem_eq_ok rfl first
    exact ih (tracks_dictSet tracks nodup fun item _ isId fields found updates =>
      keep item fields isId found updates) (nodup_dictSet nodup _ _) rest

variable {payloads front back : List Fields}

theorem upsertItems_eq_ok {updates : List Fields} {ids : List String}
    (valid : ∀ item ∈ items, isIdentifier item.id = true)
    (nodup : (items.map DirectionItem.id).Nodup)
    (upserted : upsertItems repr kind label items updates = .ok (payloads, ids)) :
    ∃ front back, payloads = front ++ back ∧ List.Forall₂ (Updates repr kind) items front := by
  obtain ⟨updateIds, -, upserted⟩ := bind_eq_ok.mp upserted
  obtain ⟨next, isNext, same⟩ := bind_eq_ok.mp upserted
  cases same
  have keys : ((entries kind items).map Prod.fst).Nodup := by
    rw [entries, List.map_map]
    exact nodup
  obtain ⟨front, back, rfl, follows⟩ :=
    upsertEach_eq_ok (tracks_entries fun item mem => updates_fields (valid item mem)) keys isNext
  exact ⟨front.map Prod.snd, back.map Prod.snd, List.map_append,
    List.forall₂_map_right_iff.mpr (follows.imp fun _ _ here => here.2)⟩

/-! ### A completion -/

/-- What a completion keeps of an item: its status is the old one, or one of those that it may be
resolved to. -/
structure Resolves (repr : Json → String) (kind : ItemKind κ σ) (allowedStatuses ids : List String)
    (item : DirectionItem κ σ) (fields : Fields) : Prop where
  keeps : Keeps kind item fields
  id : fields.lookup "id" = some (.str item.id)
  status : fields.lookup "status" = some (.str (kind.statuses.text item.status)) ∨
    item.id ∈ ids ∧ ∃ status ∈ allowedStatuses, fields.lookup "status" = some (.str status)

variable {allowedStatuses ids : List String}

theorem resolves_fields (item : DirectionItem κ σ) :
    Resolves repr kind allowedStatuses ids item (item.fields kind) := by
  obtain ⟨id, -, -, status, -⟩ := @lookup_fields _ _ kind item
  exact ⟨keeps_fields item, id, .inl status⟩

theorem contract_bind_eq_ok {β γ : Type} {x : Except String β} {f : β → Except DirectionError γ} {c : γ} :
    contract x >>= f = .ok c ↔ ∃ b, x = .ok b ∧ f b = .ok c := by
  rw [bind_eq_ok]
  simp only [contract_eq_ok]

theorem resolveItem_eq_ok {resolution : Fields}
    (resolved : resolveItem repr label allowedStatuses current resolution = .ok next) :
    ∃ id status evidenceIds fields, Json.strOr repr "" (resolution.lookup "id") = id ∧
      status ∈ allowedStatuses ∧ current.lookup id = some fields ∧
      next = dictSet current id
        (dictSet (dictSet fields "status" (.str status)) "evidence_ids" (.arr evidenceIds)) := by
  obtain ⟨_, -, resolved⟩ := contract_bind_eq_ok.mp resolved
  obtain ⟨_, allowed, resolved⟩ := contract_bind_eq_ok.mp resolved
  split at resolved
  next evidenceIds _ =>
    dsimp only at resolved
    split at resolved
    next => cases resolved
    next fields found =>
      cases resolved
      exact ⟨_, _, evidenceIds, fields, rfl, require_eq_ok.mp allowed, found, rfl⟩
  next => cases resolved

theorem resolves_resolved {status : String} {evidenceIds : List Json}
    (resolves : Resolves repr kind allowedStatuses ids item fields)
    (allowed : status ∈ allowedStatuses) (named : item.id ∈ ids) :
    Resolves repr kind allowedStatuses ids item
      (dictSet (dictSet fields "status" (.str status)) "evidence_ids" (.arr evidenceIds)) := by
  refine ⟨⟨fun inKeys => ?_, ?_⟩, ?_, .inr ⟨named, status, allowed, ?_⟩⟩
  · rw [lookup_dictSet, lookup_dictSet, if_neg (by decide), if_neg (by decide)]
    exact resolves.keeps.severity inKeys
  · rw [lookup_dictSet, lookup_dictSet, if_neg (by decide), if_neg (by decide)]
    exact resolves.keeps.statement
  · rw [lookup_dictSet, lookup_dictSet, if_neg (by decide), if_neg (by decide)]
    exact resolves.id
  · rw [lookup_dictSet, lookup_dictSet, if_neg (by decide), if_pos rfl]

theorem resolveEach_eq_ok {resolutions : List Fields}
    (valid : ∀ item ∈ items, isIdentifier item.id = true)
    (tracks : Tracks (Resolves repr kind allowedStatuses ids) items current)
    (nodup : (current.map Prod.fst).Nodup)
    (named : ∀ resolution ∈ resolutions, strippedText repr (resolution.lookup "id") ∈ ids)
    (resolved : resolveEach repr label allowedStatuses index current resolutions = .ok next) :
    Tracks (Resolves repr kind allowedStatuses ids) items next := by
  induction resolutions generalizing index current with
  | nil =>
    cases resolved
    exact tracks
  | cons resolution resolutions ih =>
    obtain ⟨between, first, rest⟩ := bind_eq_ok.mp resolved
    obtain ⟨id, status, evidenceIds, fields, isId, allowed, found, rfl⟩ := resolveItem_eq_ok first
    refine ih (tracks_dictSet tracks nodup fun item mem same own isOwn resolves => ?_)
      (nodup_dictSet nodup _ _) (fun other mem => named other (List.mem_cons_of_mem resolution mem)) rest
    rw [found] at isOwn
    cases isOwn
    have isNamed := named resolution List.mem_cons_self
    rw [strippedText, isId, ← same, pyStrip_of_isIdentifier (valid item mem)] at isNamed
    exact resolves_resolved resolves allowed isNamed

theorem eq_of_uniqueItemIds {ids : List String}
    (areIds : uniqueItemIds repr payloads label = .ok ids) :
    ids = payloads.map fun item => strippedText repr (item.lookup "id") := by
  unfold uniqueItemIds at areIds
  dsimp only at areIds
  split at areIds
  next => cases areIds
  next =>
    obtain ⟨-, same⟩ := require_bind_eq_ok.mp areIds
    cases same
    rfl

theorem applyResolutions_eq_ok {requiredIds : Option (List String)} {resolutions : List Fields}
    (valid : ∀ item ∈ items, isIdentifier item.id = true)
    (nodup : (items.map DirectionItem.id).Nodup)
    (applied : applyResolutions repr label allowedStatuses requiredIds (entries kind items) resolutions =
      .ok payloads) :
    ∃ ids, ids = (resolutions.map fun item => strippedText repr (item.lookup "id")) ∧
      (∀ required ∈ requiredIds, ∀ id ∈ ids, id ∈ required) ∧
      ∃ front back, payloads = front ++ back ∧
        List.Forall₂ (Resolves repr kind allowedStatuses ids) items front := by
  unfold applyResolutions at applied
  obtain ⟨ids, areIds, applied⟩ := contract_bind_eq_ok.mp applied
  obtain rfl := eq_of_uniqueItemIds areIds
  obtain ⟨_, -, applied⟩ := contract_bind_eq_ok.mp applied
  obtain ⟨_, isRequired, applied⟩ := contract_bind_eq_ok.mp applied
  obtain ⟨next, isNext, same⟩ := bind_eq_ok.mp applied
  cases same
  have keys : ((entries kind items).map Prod.fst).Nodup := by
    rw [entries, List.map_map]
    exact nodup
  have named : ∀ resolution ∈ resolutions, strippedText repr (resolution.lookup "id") ∈
      resolutions.map fun item => strippedText repr (item.lookup "id") :=
    fun resolution mem => List.mem_map.mpr ⟨resolution, mem, rfl⟩
  obtain ⟨front, back, rfl, follows⟩ := resolveEach_eq_ok valid
    (tracks_entries fun item _ => resolves_fields item) keys named isNext
  refine ⟨_, rfl, fun required isSome id mem => ?_, front.map Prod.snd, back.map Prod.snd,
    List.map_append, List.forall₂_map_right_iff.mpr (follows.imp fun _ _ here => here.2)⟩
  cases isSome
  obtain ⟨-, noneUnexpected⟩ := require_eq_ok.mp isRequired
  by_contra missing
  have := List.filter_eq_nil_iff.mp noneUnexpected id mem
  simp [missing] at this

/-! ### What the operations keep of a state -/

/-- The old items are the first ones, in order.  `may` are those whose status may change after all. -/
def KeepsItems (kind : ItemKind κ σ) (may : String → Prop) (old new : List (DirectionItem κ σ)) : Prop :=
  List.Forall₂ (fun item item' => item'.id = item.id ∧ item'.severity = item.severity ∧
    item'.statement = item.statement ∧
      (kind.terminal item.status = true → item'.status = item.status ∨ may item.id))
    old (new.take old.length)

theorem forall₂_compose {α β γ : Type} {P : α → β → Prop} {Q : β → γ → Prop} {xs : List α} {ys : List β}
    {zs : List γ} (left : List.Forall₂ P xs ys) (right : List.Forall₂ Q ys zs) :
    List.Forall₂ (fun x z => ∃ y, P x y ∧ Q y z) xs zs := by
  induction left generalizing zs with
  | nil =>
    cases right
    exact .nil
  | cons here _ ih =>
    cases right with
    | cons next rest => exact .cons ⟨_, here, next⟩ (ih rest)

variable {evidenceIds : List String} {items' : List (DirectionItem κ σ)}

theorem items_of_edited
    (isLookup : fields.lookup kind.field = some (.arr ((front ++ back).map Json.obj)))
    (follows : List.Forall₂ R items front)
    (read : parseItems repr kind fields limit evidenceIds = .ok items') :
    List.Forall₂ (fun item item' => ∃ fields, R item fields ∧ ReadsItem repr kind fields item') items
      (items'.take items.length) := by
  obtain ⟨payloads, isPayloads, -, parsed⟩ := parseItems_eq_ok.mp read
  rw [isLookup] at isPayloads
  cases isPayloads
  have each := List.forall₂_map_left_iff.mp (parseEach_eq_ok parsed)
  have first := List.forall₂_take front.length each
  rw [List.take_left, ← follows.length_eq] at first
  refine (forall₂_compose follows first).imp ?_
  rintro item item' ⟨own, here, index, isItem⟩
  obtain ⟨-, object, isObject, reads⟩ := parseItem_eq_ok isItem
  cases isObject
  exact ⟨own, here, reads⟩

theorem evidence_prefix {old new : List DirectionEvidence} {additions : List Fields}
    (valid : ∀ item ∈ old, item.Valid)
    (parsed : parseEach (parseEvidence repr) index
      ((old.map DirectionEvidence.fields ++ additions).map Json.obj) = .ok new) : old <+: new := by
  induction old generalizing index new with
  | nil => exact List.nil_prefix
  | cons item old ih =>
    obtain ⟨first, isFirst, parsed⟩ := bind_eq_ok.mp parsed
    obtain ⟨rest, isRest, same⟩ := bind_eq_ok.mp parsed
    cases same
    rw [parseEvidence_fields (valid item List.mem_cons_self)] at isFirst
    cases isFirst
    rw [List.prefix_cons_inj]
    exact ih (fun other mem => valid other (List.mem_cons_of_mem item mem)) isRest

theorem ValidItems.identifiers (valid : ValidItems kind limit evidenceIds items) :
    ∀ item ∈ items, isIdentifier item.id = true :=
  fun item mem => (valid.valid item mem).id

theorem keepsItems_of_updates {limit' : Nat} {evidenceIds' : List String} {may : String → Prop}
    (valid : ValidItems kind limit evidenceIds items)
    (isLookup : fields.lookup kind.field = some (.arr ((front ++ back).map Json.obj)))
    (follows : List.Forall₂ (Updates repr kind) items front)
    (read : parseItems repr kind fields limit' evidenceIds' = .ok items') :
    KeepsItems kind may items items' := by
  have texts : ∀ item ∈ items, IsText maxItemStatementChars item.statement :=
    fun item mem => (valid.valid item mem).statement
  have edited := items_of_edited isLookup follows read
  unfold KeepsItems
  clear valid isLookup follows read
  generalize items'.take items.length = firsts at edited ⊢
  induction edited with
  | nil => exact .nil
  | @cons item item' items firsts here _ ih =>
    refine .cons ?_ (ih fun other mem => texts other (List.mem_cons_of_mem item mem))
    obtain ⟨own, updates, reads⟩ := here
    obtain ⟨severity, statement⟩ :=
      readsItem_of_keeps updates.keeps (texts item List.mem_cons_self) reads
    refine ⟨reads.id.symm.trans updates.id, severity, statement, fun terminal => .inl ?_⟩
    refine kind.statuses.text_injective _ _ ?_
    rw [← reads.status, strippedText, updates.status terminal, kind.statuses.text_stripped]

theorem keepsItems_of_resolves {limit' : Nat} {evidenceIds' : List String} {may : String → Prop}
    (valid : ValidItems kind limit evidenceIds items)
    (isLookup : fields.lookup kind.field = some (.arr ((front ++ back).map Json.obj)))
    (follows : List.Forall₂ (Resolves repr kind allowedStatuses ids) items front)
    (read : parseItems repr kind fields limit' evidenceIds' = .ok items')
    (stripped : ∀ status ∈ allowedStatuses, pyStrip status = status)
    (resolved : ∀ item ∈ items, kind.terminal item.status = true → item.id ∈ ids →
      may item.id ∨ allowedStatuses = [kind.statuses.text item.status]) :
    KeepsItems kind may items items' := by
  have known : ∀ item ∈ items, isIdentifier item.id = true ∧ IsText maxItemStatementChars item.statement :=
    fun item mem => ⟨(valid.valid item mem).id, (valid.valid item mem).statement⟩
  have edited := items_of_edited isLookup follows read
  unfold KeepsItems
  clear valid isLookup follows read
  generalize items'.take items.length = firsts at edited ⊢
  induction edited with
  | nil => exact .nil
  | @cons item item' items firsts here _ ih =>
    refine .cons ?_ (ih (fun other mem => resolved other (List.mem_cons_of_mem item mem))
      fun other mem => known other (List.mem_cons_of_mem item mem))
    obtain ⟨own, resolves, reads⟩ := here
    obtain ⟨isId, isText⟩ := known item List.mem_cons_self
    obtain ⟨severity, statement⟩ := readsItem_of_keeps resolves.keeps isText reads
    have id : item'.id = item.id := by
      rw [← reads.id, resolves.id, strippedText_str, pyStrip_of_isIdentifier isId]
    refine ⟨id, severity, statement, fun terminal => ?_⟩
    have isStatus := reads.status
    rcases resolves.status with same | ⟨named, status, allowed, isResolved⟩
    · left
      rw [same, strippedText_str, kind.statuses.text_stripped] at isStatus
      exact (kind.statuses.text_injective _ _ isStatus).symm
    · rcases resolved item List.mem_cons_self terminal named with may | only
      · exact .inr may
      · left
        rw [isResolved, strippedText_str, stripped status allowed] at isStatus
        rw [only, List.mem_singleton] at allowed
        exact (kind.statuses.text_injective _ _ (allowed.symm.trans isStatus)).symm

theorem eq_of_objects {value : Option Json} (read : objects value label = .ok payloads) :
    value = some (.arr (payloads.map Json.obj)) := by
  unfold objects at read
  split at read
  next own =>
    have each := parseEach_eq_ok read
    clear read
    have same : own = payloads.map Json.obj := by
      induction each with
      | nil => rfl
      | @cons item payload own payloads isPayload _ ih =>
        obtain ⟨index, isPayload⟩ := isPayload
        split at isPayload
        next =>
          cases isPayload
          rw [List.map_cons, ih]
        next => cases isPayload
    rw [same]
  next => cases read

end

/-- A completion resolves this item. -/
def Names (payload : Json) (field : String) (resolution : Fields) : Prop :=
  ∃ items, payload.get field = some (.arr items) ∧ Json.obj resolution ∈ items

section

variable (repr : Json → String)

/-- The operation is a completion that resolves the hypothesis. -/
def DirectionOp.ResolvesHypothesis (id : String) : DirectionOp → Prop
  | .finalize payload => ∃ resolution, Names payload "hypotheses" resolution ∧
      strippedText repr (resolution.lookup "id") = id
  | _ => False

/-- The operation is a completion that names an id with white space around it. -/
def DirectionOp.Padded : DirectionOp → Prop
  | .finalize payload => ∃ field resolution, Names payload field resolution ∧
      strippedText repr (resolution.lookup "id") ≠ Json.strOr repr "" (resolution.lookup "id")
  | _ => False

/-- What an update and a completion keep of a state. -/
structure Continues (op : DirectionOp) (old new : TaskDirectionState) : Prop where
  objective : new.objective = old.objective
  evidence : old.evidence <+: new.evidence
  hypotheses : KeepsItems hypothesisKind (op.ResolvesHypothesis repr) old.hypotheses new.hypotheses
  unresolvedRisks : KeepsItems riskKind (fun _ => False) old.unresolvedRisks new.unresolvedRisks
  doneCriteria : KeepsItems criterionKind (fun _ => False) old.doneCriteria new.doneCriteria

end

section

variable {repr : Json → String} {old new : TaskDirectionState}

theorem KeepsItems.refl {κ σ : Type} {kind : ItemKind κ σ} {may : String → Prop}
    (items : List (DirectionItem κ σ)) : KeepsItems kind may items items := by
  unfold KeepsItems
  rw [List.take_length, List.forall₂_same]
  exact fun item _ => ⟨rfl, rfl, rfl, fun _ => .inl rfl⟩

theorem Continues.refl (op : DirectionOp) (state : TaskDirectionState) :
    Continues repr op state state :=
  ⟨rfl, List.prefix_rfl, .refl _, .refl _, .refl _⟩

theorem reads_statePayload {objective : String} {hypotheses evidence risks criteria : List Fields}
    (read : TaskDirectionState.fromPayload repr
      (statePayload objective hypotheses evidence risks criteria) = .ok new)
    (isText : IsText maxObjectiveChars objective) :
    new.objective = objective ∧
      parseEach (parseEvidence repr) 0 (evidence.map Json.obj) = .ok new.evidence ∧
      ∃ fields : Fields, fields.lookup "hypotheses" = some (.arr (hypotheses.map Json.obj)) ∧
        fields.lookup "unresolved_risks" = some (.arr (risks.map Json.obj)) ∧
        fields.lookup "done_criteria" = some (.arr (criteria.map Json.obj)) ∧
        parseItems repr hypothesisKind fields maxHypotheses (new.evidence.map DirectionEvidence.id) =
          .ok new.hypotheses ∧
        parseItems repr riskKind fields maxRisks (new.evidence.map DirectionEvidence.id) =
          .ok new.unresolvedRisks ∧
        parseItems repr criterionKind fields maxDoneCriteria (new.evidence.map DirectionEvidence.id) =
          .ok new.doneCriteria := by
  obtain ⟨fields, isObject, reads⟩ := fromPayload_eq_ok.mp read
  cases isObject
  obtain ⟨payloads, isEvidence, -, parsed⟩ := reads.evidence
  cases isEvidence
  refine ⟨?_, parsed, _, rfl, rfl, rfl, reads.hypotheses, reads.unresolvedRisks, reads.doneCriteria⟩
  have isObjective := reads.objective.symm.trans (requiredText_str isText "state.objective")
  cases isObjective
  rfl

variable {payload : Json}

theorem update_continues {update : TaskDirectionUpdate} (op : DirectionOp) (valid : old.Valid)
    (updated : TaskDirectionUpdate.fromPayload repr payload old = .ok update) :
    Continues repr op old update.state ∧ update.state.Valid := by
  unfold TaskDirectionUpdate.fromPayload at updated
  split at updated
  next fields =>
    obtain ⟨_, -, updated⟩ := bind_eq_ok.mp updated
    obtain ⟨evidence, -, updated⟩ := bind_eq_ok.mp updated
    obtain ⟨hypotheses, -, updated⟩ := bind_eq_ok.mp updated
    obtain ⟨risks, -, updated⟩ := bind_eq_ok.mp updated
    obtain ⟨criteria, -, updated⟩ := bind_eq_ok.mp updated
    obtain ⟨_, -, updated⟩ := bind_eq_ok.mp updated
    obtain ⟨⟨allEvidence, addedIds⟩, appended, updated⟩ := bind_eq_ok.mp updated
    obtain ⟨⟨allHypotheses, hypothesisIds⟩, upsertedHypotheses, updated⟩ := bind_eq_ok.mp updated
    obtain ⟨⟨allRisks, riskIds⟩, upsertedRisks, updated⟩ := bind_eq_ok.mp updated
    obtain ⟨⟨allCriteria, criterionIds⟩, upsertedCriteria, updated⟩ := bind_eq_ok.mp updated
    obtain ⟨state, read, same⟩ := bind_eq_ok.mp updated
    cases same
    obtain ⟨_, -, appended⟩ := bind_eq_ok.mp appended
    obtain ⟨-, appended⟩ := require_bind_eq_ok.mp appended
    cases appended
    obtain ⟨objective, parsed, fields, isHypotheses, isRisks, isCriteria, readHypotheses, readRisks,
      readCriteria⟩ := reads_statePayload read valid.objective
    obtain ⟨frontHypotheses, backHypotheses, rfl, followsHypotheses⟩ :=
      upsertItems_eq_ok valid.hypotheses.identifiers valid.hypotheses.nodup upsertedHypotheses
    obtain ⟨frontRisks, backRisks, rfl, followsRisks⟩ :=
      upsertItems_eq_ok valid.unresolvedRisks.identifiers valid.unresolvedRisks.nodup upsertedRisks
    obtain ⟨frontCriteria, backCriteria, rfl, followsCriteria⟩ :=
      upsertItems_eq_ok valid.doneCriteria.identifiers valid.doneCriteria.nodup upsertedCriteria
    exact ⟨⟨objective, evidence_prefix valid.evidence parsed,
      keepsItems_of_updates valid.hypotheses isHypotheses followsHypotheses readHypotheses,
      keepsItems_of_updates valid.unresolvedRisks isRisks followsRisks readRisks,
      keepsItems_of_updates valid.doneCriteria isCriteria followsCriteria readCriteria⟩,
      fromPayload_valid read⟩
  next => cases updated

theorem completion_continues {completion : TaskDirectionCompletion} (valid : old.Valid)
    (completed : TaskDirectionCompletion.fromPayload repr payload old = .ok completion) :
    Continues repr (.finalize payload) old completion.state ∧ completion.state.Valid ∧
      (payload.get "expected_revision").bind Gateway.asInt = some ↑completion.expectedRevision := by
  unfold TaskDirectionCompletion.fromPayload at completed
  split at completed
  next fields =>
    obtain ⟨_, -, completed⟩ := contract_bind_eq_ok.mp completed
    obtain ⟨expected, isExpected, completed⟩ := contract_bind_eq_ok.mp completed
    obtain ⟨additions, -, completed⟩ := contract_bind_eq_ok.mp completed
    obtain ⟨⟨allEvidence, addedIds⟩, appended, completed⟩ := contract_bind_eq_ok.mp completed
    obtain ⟨hypotheses, areHypotheses, completed⟩ := contract_bind_eq_ok.mp completed
    obtain ⟨allHypotheses, resolvedHypotheses, completed⟩ := bind_eq_ok.mp completed
    obtain ⟨risks, -, completed⟩ := contract_bind_eq_ok.mp completed
    obtain ⟨allRisks, resolvedRisks, completed⟩ := bind_eq_ok.mp completed
    obtain ⟨criteria, -, completed⟩ := contract_bind_eq_ok.mp completed
    obtain ⟨allCriteria, resolvedCriteria, completed⟩ := bind_eq_ok.mp completed
    obtain ⟨state, read, same⟩ := contract_bind_eq_ok.mp completed
    cases same
    obtain ⟨_, -, appended⟩ := bind_eq_ok.mp appended
    obtain ⟨-, appended⟩ := require_bind_eq_ok.mp appended
    cases appended
    obtain ⟨objective, parsed, own, isHypotheses, isRisks, isCriteria, readHypotheses, readRisks,
      readCriteria⟩ := reads_statePayload read valid.objective
    obtain ⟨_, rfl, -, frontHypotheses, backHypotheses, rfl, followsHypotheses⟩ :=
      applyResolutions_eq_ok valid.hypotheses.identifiers valid.hypotheses.nodup resolvedHypotheses
    obtain ⟨_, rfl, -, frontRisks, backRisks, rfl, followsRisks⟩ :=
      applyResolutions_eq_ok valid.unresolvedRisks.identifiers valid.unresolvedRisks.nodup resolvedRisks
    obtain ⟨ids, -, isRequired, frontCriteria, backCriteria, rfl, followsCriteria⟩ :=
      applyResolutions_eq_ok valid.doneCriteria.identifiers valid.doneCriteria.nodup resolvedCriteria
    refine ⟨⟨objective, evidence_prefix valid.evidence parsed,
      keepsItems_of_resolves valid.hypotheses isHypotheses followsHypotheses readHypotheses
        (by decide +kernel) fun item _ _ named => .inl ?_,
      keepsItems_of_resolves valid.unresolvedRisks isRisks followsRisks readRisks
        (by decide +kernel) fun item _ terminal _ => .inr ?_,
      keepsItems_of_resolves valid.doneCriteria isCriteria followsCriteria readCriteria
        (by decide +kernel) fun item mem terminal named => .inl ?_⟩, fromPayload_valid read, ?_⟩
    · obtain ⟨resolution, isResolution, same⟩ := List.mem_map.mp named
      exact ⟨resolution, ⟨_, eq_of_objects areHypotheses, List.mem_map_of_mem isResolution⟩, same⟩
    · have resolved : item.status = .resolved := of_decide_eq_true terminal
      rw [resolved]
      rfl
    · -- Only pending criteria are resolved.
      have pending := isRequired _ rfl item.id named
      obtain ⟨other, isOther, same⟩ := List.mem_map.mp pending
      obtain ⟨inCriteria, isPending⟩ := List.mem_filter.mp isOther
      have eq := List.inj_on_of_nodup_map valid.doneCriteria.nodup inCriteria mem same
      rw [← eq] at terminal
      have isPending : other.status = .pending := of_decide_eq_true isPending
      have isTerminal : other.status = .met ∨ other.status = .blocked := of_decide_eq_true terminal
      rw [isPending] at isTerminal
      rcases isTerminal with absurd | absurd <;> cases absurd
    · have isPositive : (Json.obj fields).get "expected_revision" = fields.lookup "expected_revision" := rfl
      rw [isPositive]
      unfold positiveRevision at isExpected
      split at isExpected
      next n isValue =>
        cases isExpected
        exact isValue
      next => cases isExpected
  next => cases completed

/-! ### What the operations raise -/

/-- `TaskDirectionContractError` -/
def DirectionError.IsContract (error : DirectionError) : Prop := ∃ text, error = .contract text

/-- A `KeyError`. -/
def DirectionError.IsKey (error : DirectionError) : Prop := ∃ key, error = .key key

variable {error : DirectionError}

theorem contract_eq_error {β : Type} {x : Except String β} (raised : contract x = .error error) :
    error.IsContract := by
  cases x with
  | error text =>
    cases raised
    exact ⟨text, rfl⟩
  | ok b => cases raised

theorem contract_bind_eq_error {β γ : Type} {x : Except String β} {f : β → Except DirectionError γ}
    (raised : contract x >>= f = .error error) :
    error.IsContract ∨ ∃ b, x = .ok b ∧ f b = .error error := by
  rcases bind_eq_error.mp raised with own | ⟨b, isOk, raised⟩
  · exact .inl (contract_eq_error own)
  · exact .inr ⟨b, contract_eq_ok.mp isOk, raised⟩

variable {label : String} {allowedStatuses : List String} {current : List (String × Fields)}

theorem resolveItem_eq_error {resolution : Fields}
    (raised : resolveItem repr label allowedStatuses current resolution = .error error) :
    error.IsContract ∨
      error.IsKey ∧ current.lookup (Json.strOr repr "" (resolution.lookup "id")) = none := by
  rcases contract_bind_eq_error raised with own | ⟨_, -, raised⟩
  · exact .inl own
  rcases contract_bind_eq_error raised with own | ⟨_, -, raised⟩
  · exact .inl own
  split at raised
  next evidenceIds _ =>
    dsimp only at raised
    split at raised
    next absent =>
      cases raised
      exact .inr ⟨⟨_, rfl⟩, absent⟩
    next => cases raised
  next =>
    cases raised
    exact .inl ⟨_, rfl⟩

theorem resolveEach_eq_error {index : Nat} {resolutions : List Fields}
    (raised : resolveEach repr label allowedStatuses index current resolutions = .error error) :
    error.IsContract ∨ error.IsKey ∧ ∃ resolution ∈ resolutions,
      Json.strOr repr "" (resolution.lookup "id") ∉ current.map Prod.fst := by
  induction resolutions generalizing index current with
  | nil => cases raised
  | cons resolution resolutions ih =>
    rcases bind_eq_error.mp raised with own | ⟨next, isNext, raised⟩
    · refine (resolveItem_eq_error own).imp_right fun ⟨isKey, absent⟩ =>
        ⟨isKey, resolution, List.mem_cons_self, fun inKeys => ?_⟩
      obtain ⟨entry, mem, same⟩ := List.mem_map.mp inKeys
      have missing := List.lookup_eq_none_iff.mp absent entry mem
      rw [same] at missing
      simp at missing
    · obtain ⟨id, status, evidenceIds, fields, -, -, found, rfl⟩ := resolveItem_eq_ok isNext
      refine (ih raised).imp_right fun ⟨isKey, other, mem, absent⟩ =>
        ⟨isKey, other, List.mem_cons_of_mem resolution mem, ?_⟩
      rw [keys_dictSet, if_pos (List.mem_map_of_mem (mem_of_lookup found))] at absent
      exact absent

theorem applyResolutions_eq_error {requiredIds : Option (List String)} {resolutions : List Fields}
    (raised : applyResolutions repr label allowedStatuses requiredIds current resolutions = .error error) :
    error.IsContract ∨ error.IsKey ∧ ∃ resolution ∈ resolutions,
      strippedText repr (resolution.lookup "id") ≠ Json.strOr repr "" (resolution.lookup "id") := by
  unfold applyResolutions at raised
  rcases contract_bind_eq_error raised with own | ⟨ids, areIds, raised⟩
  · exact .inl own
  obtain rfl := eq_of_uniqueItemIds areIds
  rcases contract_bind_eq_error raised with own | ⟨_, known, raised⟩
  · exact .inl own
  rcases contract_bind_eq_error raised with own | ⟨_, -, raised⟩
  · exact .inl own
  rcases bind_eq_error.mp raised with own | ⟨_, -, raised⟩
  · refine (resolveEach_eq_error own).imp_right fun ⟨isKey, resolution, mem, absent⟩ =>
      ⟨isKey, resolution, mem, fun same => absent ?_⟩
    rw [← same]
    exact require_eq_ok.mp known _ (List.mem_map.mpr ⟨resolution, mem, rfl⟩)
  · cases raised

theorem completion_eq_error
    (raised : TaskDirectionCompletion.fromPayload repr payload old = .error error) :
    error.IsContract ∨ error.IsKey ∧ (DirectionOp.finalize payload).Padded repr := by
  have padded {fields : Fields} {field label : String} {resolutions : List Fields}
      (isObject : payload = .obj fields) (read : objects (fields.lookup field) label = .ok resolutions)
      (found : ∃ resolution ∈ resolutions,
        strippedText repr (resolution.lookup "id") ≠ Json.strOr repr "" (resolution.lookup "id")) :
      (DirectionOp.finalize payload).Padded repr := by
    obtain ⟨resolution, mem, differs⟩ := found
    subst isObject
    exact ⟨field, resolution, ⟨_, eq_of_objects read, List.mem_map_of_mem mem⟩, differs⟩
  unfold TaskDirectionCompletion.fromPayload at raised
  split at raised
  next fields =>
    rcases contract_bind_eq_error raised with own | ⟨_, -, raised⟩
    · exact .inl own
    rcases contract_bind_eq_error raised with own | ⟨expected, -, raised⟩
    · exact .inl own
    rcases contract_bind_eq_error raised with own | ⟨additions, -, raised⟩
    · exact .inl own
    rcases contract_bind_eq_error raised with own | ⟨⟨allEvidence, addedIds⟩, -, raised⟩
    · exact .inl own
    rcases contract_bind_eq_error raised with own | ⟨hypotheses, areHypotheses, raised⟩
    · exact .inl own
    rcases bind_eq_error.mp raised with own | ⟨allHypotheses, -, raised⟩
    · exact (applyResolutions_eq_error own).imp_right (And.imp_right (padded rfl areHypotheses))
    rcases contract_bind_eq_error raised with own | ⟨risks, areRisks, raised⟩
    · exact .inl own
    rcases bind_eq_error.mp raised with own | ⟨allRisks, -, raised⟩
    · exact (applyResolutions_eq_error own).imp_right (And.imp_right (padded rfl areRisks))
    rcases contract_bind_eq_error raised with own | ⟨criteria, areCriteria, raised⟩
    · exact .inl own
    rcases bind_eq_error.mp raised with own | ⟨allCriteria, -, raised⟩
    · exact (applyResolutions_eq_error own).imp_right (And.imp_right (padded rfl areCriteria))
    rcases contract_bind_eq_error raised with own | ⟨state, -, raised⟩
    · exact .inl own
    · cases raised
  next =>
    cases raised
    exact .inl ⟨_, rfl⟩

end

/-! ### The history of a direction -/

/-- The revision of a document. -/
def revisionOf : Option DirectionDocument → Nat
  | none => 0
  | some document => document.revision

/-- The `expected_revision` of an operation. -/
def DirectionOp.expectedRevision : DirectionOp → Option Int
  | .replace expectedRevision _ => expectedRevision
  | .update expectedRevision _ => expectedRevision
  | .complete expectedRevision => expectedRevision
  | .finalize payload => (payload.get "expected_revision").bind Gateway.asInt

section

variable (repr : Json → String)

/-- What an operation raises: a contract error, unless its revision is stale or there is nothing to
report on; a completion that names an id with white space around it may raise a `KeyError`. -/
def Rejects (document : Option DirectionDocument) (op : DirectionOp) : DirectionError → Prop
  | .contract _ => True
  | .conflict _ => op.expectedRevision ≠ some ↑(revisionOf document)
  | .report _ => document = none ∨ op.expectedRevision ≠ some ↑(revisionOf document)
  | .key _ => op.Padded repr

/-- A step of the history.  An operation that is rejected changes nothing; one that is written goes on
from the direction by one revision; and a direction that is completed may be completed again, which
writes nothing. -/
def Monotone (document : Option DirectionDocument) (op : DirectionOp)
    (document' : Option DirectionDocument) : Prop :=
  match perform repr document op with
  | .error error => document' = document ∧ Rejects repr document op error
  | .ok (stored, false) =>
    document' = document ∧ document = some stored.document ∧ stored.status = .completed
  | .ok (stored, true) =>
    document' = some stored.document ∧ stored.revision = revisionOf document + 1 ∧
      op.expectedRevision = some ↑(revisionOf document) ∧
        match readDirection repr document with
        | .ok (some current) => current.status = .active ∧ Continues repr op current.state stored.state
        | _ => ∃ expectedRevision state, op = .replace expectedRevision state

/-- The document is one of a valid state. -/
def DocumentSound (document : Option DirectionDocument) : Prop :=
  ∀ d ∈ document, ∃ stored : StoredTaskDirection, d = stored.document ∧ stored.state.Valid

end

section

variable {repr : Json → String} {document : Option DirectionDocument}

theorem readDirection_of_sound (sound : DocumentSound document) :
    document = none ∧ readDirection repr document = .ok none ∨
      ∃ stored : StoredTaskDirection, document = some stored.document ∧ stored.state.Valid ∧
        readDirection repr document = .ok (some stored) := by
  cases document with
  | none => exact .inl ⟨rfl, rfl⟩
  | some d =>
    obtain ⟨stored, rfl, valid⟩ := sound d rfl
    refine .inr ⟨stored, rfl, valid, ?_⟩
    have read := @fromPayload_toPayload repr _ valid
    unfold readDirection StoredTaskDirection.document
    dsimp only
    rw [read]
    rfl

theorem positiveRevision_eq_ok {expectedRevision : Option Int} {fieldName : String} {n : Nat} :
    positiveRevision expectedRevision fieldName = .ok n ↔ expectedRevision = some ↑n ∧ 0 < n := by
  unfold positiveRevision
  split
  next m =>
    constructor
    · rintro ⟨⟩
      exact ⟨rfl, Nat.succ_pos m⟩
    · rintro ⟨same, -⟩
      cases same
      rfl
  next other =>
    refine ⟨nofun, ?_⟩
    rintro ⟨rfl, positive⟩
    cases n with
    | zero => omega
    | succ m => exact absurd rfl (other m)

/-- The result of an operation on the document. -/
def PerformSound (repr : Json → String) (document : Option DirectionDocument) (op : DirectionOp) :
    Performed → Prop
  | .error error => Rejects repr document op error
  | .ok (stored, false) => document = some stored.document ∧ stored.status = .completed
  | .ok (stored, true) => stored.state.Valid ∧ stored.revision = revisionOf document + 1 ∧
      op.expectedRevision = some ↑(revisionOf document) ∧
        match readDirection repr document with
        | .ok (some current) => current.status = .active ∧ Continues repr op current.state stored.state
        | _ => ∃ expectedRevision state, op = .replace expectedRevision state

variable {op : DirectionOp}

theorem performSound_bind {β : Type} {x : Except String β} {f : β → Performed}
    (after : ∀ b, x = .ok b → PerformSound repr document op (f b)) :
    PerformSound repr document op (contract x >>= f) := by
  cases isX : x with
  | error text => trivial
  | ok b => exact after b isX

theorem conflict_of_ne {expected : Nat} (isExpected : op.expectedRevision = some ↑expected)
    (stale : revisionOf document ≠ expected) :
    PerformSound repr document op (.error (revisionConflict expected (revisionOf document))) := by
  intro same
  rw [isExpected, Option.some.injEq] at same
  omega

theorem replaceDirection_sound (sound : DocumentSound document) (expectedRevision : Option Int)
    (state : Json) : PerformSound repr document (.replace expectedRevision state)
      (replaceDirection repr document expectedRevision state) := by
  unfold replaceDirection
  split
  next expected =>
    refine performSound_bind fun parsed isParsed => ?_
    rcases @readDirection_of_sound repr _ sound with ⟨rfl, isRead⟩ | ⟨stored, rfl, valid, isRead⟩
    · rw [isRead]
      change PerformSound repr none _ (if expected ≠ 0 then _ else _)
      split
      next stale => exact conflict_of_ne rfl (Ne.symm stale)
      next fresh =>
        have zero : expected = 0 := Decidable.of_not_not fresh
        subst zero
        exact ⟨fromPayload_valid isParsed, rfl, rfl, by rw [isRead]; exact ⟨_, _, rfl⟩⟩
    · rw [isRead]
      change PerformSound repr (some stored.document) _ (if stored.revision ≠ expected then _ else _)
      split
      next stale => exact @conflict_of_ne _ (some stored.document) _ _ rfl stale
      next =>
        split
        · trivial
        · trivial
  next => trivial

theorem updateDirection_sound (sound : DocumentSound document) (expectedRevision : Option Int)
    (update : Json) : PerformSound repr document (.update expectedRevision update)
      (updateDirection repr document expectedRevision update) := by
  unfold updateDirection
  refine performSound_bind fun expected isExpected => ?_
  obtain ⟨rfl, -⟩ := positiveRevision_eq_ok.mp isExpected
  rcases @readDirection_of_sound repr _ sound with ⟨rfl, isRead⟩ | ⟨stored, rfl, valid, isRead⟩
  · rw [isRead]
    trivial
  · rw [isRead]
    change PerformSound repr (some stored.document) _ (if stored.revision ≠ expected then _ else _)
    split
    next stale => exact @conflict_of_ne _ (some stored.document) _ _ rfl stale
    next current =>
      have same : stored.revision = expected := Decidable.of_not_not current
      subst same
      split
      next => trivial
      next active =>
        refine performSound_bind fun parsed isParsed => ?_
        obtain ⟨continues, newValid⟩ := update_continues _ valid isParsed
        refine ⟨newValid, rfl, rfl, ?_⟩
        rw [isRead]
        refine ⟨?_, continues⟩
        cases isStatus : stored.status with
        | active => rfl
        | completed => exact absurd isStatus active

theorem completeWithState_sound {state : Option Json} {expectedRevision : Option Int}
    (sound : DocumentSound document) (isOp : op.expectedRevision = expectedRevision)
    (continues : ∀ stored : StoredTaskDirection, document = some stored.document → stored.state.Valid →
      ∀ payload ∈ state, ∀ new, TaskDirectionState.fromPayload repr payload = .ok new →
        Continues repr op stored.state new) :
    PerformSound repr document op (completeWithState repr document expectedRevision state) := by
  unfold completeWithState
  refine performSound_bind fun expected isExpected => ?_
  obtain ⟨rfl, -⟩ := positiveRevision_eq_ok.mp isExpected
  have rest (parsed : Option TaskDirectionState)
      (new : ∀ stored : StoredTaskDirection, document = some stored.document → stored.state.Valid →
        Continues repr op stored.state (parsed.getD stored.state) ∧ (parsed.getD stored.state).Valid) :
      PerformSound repr document op (do
        match ← readDirection repr document with
        | none => .error (.contract "task direction must be initialized before completion")
        | some current =>
          if current.revision ≠ expected then .error (revisionConflict expected current.revision)
          else if current.status = .completed then
            if ∀ own ∈ parsed, current.state = own then return (current, false)
            else
              .error (.contract "completed task direction cannot be replaced during completion")
          else
            return ({
              status := .completed
              revision := current.revision + 1
              state := parsed.getD current.state }, true)) := by
    rcases @readDirection_of_sound repr _ sound with ⟨rfl, isRead⟩ | ⟨stored, rfl, valid, isRead⟩
    · rw [isRead]
      trivial
    · rw [isRead]
      change PerformSound repr (some stored.document) _ (if stored.revision ≠ expected then _ else _)
      split
      next stale => exact @conflict_of_ne _ (some stored.document) _ _ isOp stale
      next current =>
        have same : stored.revision = expected := Decidable.of_not_not current
        subst same
        split
        next completed =>
          split
          · exact ⟨rfl, completed⟩
          · trivial
        next active =>
          obtain ⟨newContinues, newValid⟩ := new stored rfl valid
          refine ⟨newValid, rfl, isOp, ?_⟩
          rw [isRead]
          refine ⟨?_, newContinues⟩
          cases isStatus : stored.status with
          | active => rfl
          | completed => exact absurd isStatus active
  cases state with
  | none => exact rest none fun stored _ valid => ⟨.refl op stored.state, valid⟩
  | some payload =>
    cases isParsed : TaskDirectionState.fromPayload repr payload with
    | error text =>
      simp only [isParsed]
      trivial
    | ok parsed =>
      have := rest (some parsed) fun stored isDocument valid =>
        ⟨continues stored isDocument valid payload rfl parsed isParsed, fromPayload_valid isParsed⟩
      simp only [isParsed]
      exact this

theorem finalizeDirection_sound (sound : DocumentSound document) (payload : Json) :
    PerformSound repr document (.finalize payload) (finalizeDirection repr document payload) := by
  unfold finalizeDirection
  rcases @readDirection_of_sound repr _ sound with ⟨rfl, isRead⟩ | ⟨stored, isDocument, valid, isRead⟩
  · rw [isRead]
    exact .inl rfl
  · rw [isRead]
    change PerformSound repr document _
      (TaskDirectionCompletion.fromPayload repr payload stored.state >>= fun completion => _)
    cases isCompletion : TaskDirectionCompletion.fromPayload repr payload stored.state with
    | error error =>
      rcases completion_eq_error isCompletion with ⟨text, rfl⟩ | ⟨⟨key, rfl⟩, padded⟩
      · trivial
      · exact padded
    | ok completion =>
      obtain ⟨continues, newValid, isExpected⟩ := completion_continues valid isCompletion
      have same : revisionOf document = stored.revision := by rw [isDocument]; rfl
      change PerformSound repr document _
        (if completion.expectedRevision ≠ stored.revision then _ else _)
      split
      next stale =>
        refine .inr fun current => ?_
        have : (completion.expectedRevision : Int) = ↑(revisionOf document) :=
          Option.some.inj (isExpected.symm.trans current)
        omega
      next =>
        refine completeWithState_sound sound isExpected fun other isOther otherValid payload isPayload new read => ?_
        cases isPayload
        rw [fromPayload_toPayload newValid] at read
        cases read
        have sameState : stored.state.toPayload = other.state.toPayload :=
          congrArg DirectionDocument.state (Option.some.inj (isDocument.symm.trans isOther))
        have isOtherState := @fromPayload_toPayload repr _ otherValid
        rw [← sameState, fromPayload_toPayload valid] at isOtherState
        have same := Except.ok.inj isOtherState
        exact same ▸ continues

theorem perform_sound (sound : DocumentSound document) (op : DirectionOp) :
    PerformSound repr document op (perform repr document op) := by
  cases op with
  | replace expectedRevision state => exact replaceDirection_sound sound expectedRevision state
  | update expectedRevision update => exact updateDirection_sound sound expectedRevision update
  | complete expectedRevision =>
    exact @completeWithState_sound repr document (.complete expectedRevision) none expectedRevision sound
      rfl fun _ _ _ payload isSome => absurd isSome (Option.not_mem_none payload)
  | finalize payload => exact finalizeDirection_sound sound payload

/-- One operation: the step lemma. -/
theorem directionStep_monotone (sound : DocumentSound document)
    {document' : Option DirectionDocument}
    (stepped : directionStep repr document op = some document') :
    Monotone repr document op document' ∧ DocumentSound document' := by
  have result := @perform_sound repr _ sound op
  unfold directionStep at stepped
  unfold Monotone
  cases performed : perform repr document op with
  | error error =>
    rw [performed] at stepped result
    cases stepped
    exact ⟨⟨rfl, result⟩, sound⟩
  | ok both =>
    obtain ⟨stored, written⟩ := both
    rw [performed] at stepped result
    cases written with
    | false =>
      cases stepped
      exact ⟨⟨rfl, result⟩, sound⟩
    | true =>
      cases stepped
      obtain ⟨valid, revision, expected, goesOn⟩ := result
      refine ⟨⟨rfl, revision, expected, goesOn⟩, fun d isDocument => ⟨stored, ?_, valid⟩⟩
      exact (Option.some.inj isDocument).symm

end

/-- **Along every sequence of operations the history of a direction is monotone, the document is at
every time one of a valid state, and every accepted state is read back as it was.** -/
theorem direction_monotone (repr : Json → String) (ops : List DirectionOp) :
    Along (directionStep repr) (Monotone repr) none ops ∧
      (∀ document, run (directionStep repr) none ops = some document → DocumentSound document) ∧
      ∀ payload state, TaskDirectionState.fromPayload repr payload = .ok state →
        TaskDirectionState.fromPayload repr state.toPayload = .ok state := by
  have start : DocumentSound none := fun _ none => nomatch none
  refine ⟨?_, fun document ran => ?_, fun payload state read => fromPayload_toPayload (fromPayload_valid read)⟩
  · have always : Along (directionStep repr) (fun _ _ _ => True) none ops :=
      along_of_forall_mem (p := fun _ => True) fun _ _ => trivial
    have keep : ∀ document op document', DocumentSound document →
        directionStep repr document op = some document' → True →
          Monotone repr document op document' ∧ DocumentSound document' :=
      fun _ _ _ sound stepped _ => directionStep_monotone sound stepped
    exact along_of_invariant keep start always
  · exact run_invariant (I := DocumentSound) (fun document op document' sound stepped =>
      (@directionStep_monotone repr _ _ sound _ stepped).2) start ran

/-- A direction with a confirmed hypothesis and a pending criterion. -/
def sampleDirection : Json :=
  .obj [("objective", .str "o"),
    ("hypotheses", .arr [.obj [("id", .str "h"), ("statement", .str "s"), ("status", .str "confirmed"),
      ("evidence_ids", .arr [.str "e"])]]),
    ("evidence", .arr [.obj [("id", .str "e"), ("kind", .str "test"), ("summary", .str "s"),
      ("source", .str "s")]]),
    ("unresolved_risks", .arr []),
    ("done_criteria", .arr [.obj [("id", .str "d"), ("statement", .str "s"), ("status", .str "pending"),
      ("evidence_ids", .arr [])]])]

/-- A completion that rejects a hypothesis and meets the criterion. -/
def sampleCompletion (hypothesisId : String) : Json :=
  .obj [("expected_revision", .nat 1), ("evidence", .arr []),
    ("hypotheses", .arr [.obj [("id", .str hypothesisId), ("status", .str "rejected"),
      ("evidence_ids", .arr [.str "e"])]]),
    ("risks", .arr []),
    ("criteria", .arr [.obj [("id", .str "d"), ("status", .str "met"),
      ("evidence_ids", .arr [.str "e"])]])]

/-- A direction that is completed is completed again at the same revision; a completion turns a
confirmed hypothesis into a rejected one; and one that writes an id with blanks raises a `KeyError`. -/
theorem direction_monotone_stutters :
    run (directionStep fun _ => "") none [.replace (some 0) sampleDirection] =
        some (some { status := .active, revision := 1, state := sampleDirection }) ∧
      run (directionStep fun _ => "") none [.replace (some 0) sampleDirection, .complete (some 1)] =
        some (some { status := .completed, revision := 2, state := sampleDirection }) ∧
      (perform (fun _ => "") (some { status := .completed, revision := 2, state := sampleDirection })
        (.complete (some 2))).toOption.map (fun both => both.1.revision) = some 2 ∧
      (perform (fun _ => "") (some { status := .active, revision := 1, state := sampleDirection })
        (.finalize (sampleCompletion "h"))).toOption.map
          (fun both => both.1.state.hypotheses.map DirectionItem.status) = some [.rejected] ∧
      perform (fun _ => "") (some { status := .active, revision := 1, state := sampleDirection })
        (.finalize (sampleCompletion " h ")) = .error (.key " h ") := by
  refine ⟨by decide +kernel, by decide +kernel, by decide +kernel, by decide +kernel, ?_⟩
  have raises : (match perform (fun _ => "")
      (some { status := .active, revision := 1, state := sampleDirection })
      (.finalize (sampleCompletion " h ")) with
    | .error error => decide (error = .key " h ")
    | .ok _ => false) = true := by decide +kernel
  split at raises
  next error performed => rw [performed, of_decide_eq_true raises]
  next => cases raises

end AgentPark.Agents
