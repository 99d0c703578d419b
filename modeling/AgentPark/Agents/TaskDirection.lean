import AgentPark.Lib.Json
import AgentPark.Lib.Outcome
import Mathlib.Data.List.Forall2
import Mathlib.Data.List.Sort

/-!
# The state of a task direction

An objective, hypotheses, evidence, risks and criteria, which an agent hands over as JSON.
`TaskDirectionState.fromPayload` checks everything that comes in, and everything that is read back.
-/

namespace AgentPark.Agents

open Lib

def maxObjectiveChars : Nat := 8000
def maxItemStatementChars : Nat := 4000
def maxSourceChars : Nat := 2000
def maxHypotheses : Nat := 50
def maxEvidence : Nat := 100
def maxRisks : Nat := 50
def maxDoneCriteria : Nat := 50

/-! ### Reading values -/

/-- `", ".join(sorted(set(names)))` -/
def joined (names : List String) : String :=
  ", ".intercalate (names.dedup.mergeSort fun a b => decide (a ≤ b))

/-- `_reject_unknown_keys` -/
def rejectUnknownKeys (fields : List (String × Json)) (allowed : List String) (label : String) :
    Except String Unit :=
  require (∀ entry ∈ fields, entry.1 ∈ allowed)
    (label ++ " has unknown fields: " ++
      joined ((fields.map Prod.fst).filter fun key => key ∉ allowed))

/-- The class `[A-Za-z0-9_.:-]`. -/
def isIdentifierChar (c : Char) : Bool := c.isAlphanum || c ∈ ['_', '.', ':', '-']

/-- `_ID_RE.fullmatch` -/
def isIdentifier (text : String) : Bool :=
  match text.toList with
  | [] => false
  | c :: cs => c.isAlphanum && cs.length ≤ 79 && cs.all isIdentifierChar

/-- `_required_text` -/
def requiredText (value : Option Json) (fieldName : String) (maxChars : Nat) : Except String String :=
  match value with
  | some (.str text) =>
    if pyStrip text = "" then .error (fieldName ++ " must be a non-empty string")
    else if maxChars < (pyStrip text).length then
      .error (fieldName ++ " cannot exceed " ++ maxChars.repr ++ " characters")
    else .ok (pyStrip text)
  | _ => .error (fieldName ++ " must be a non-empty string")

/-- `_required_list` -/
def requiredList (value : Option Json) (fieldName : String) (limit : Nat) : Except String (List Json) :=
  match value with
  | some (.arr items) =>
    if limit < items.length then
      .error (fieldName ++ " cannot contain more than " ++ limit.repr ++ " items")
    else .ok items
  | _ => .error (fieldName ++ " must be an array")

/-- `_item_object` -/
def itemObject (value : Json) (label : String) (allowed : List String) :
    Except String (List (String × Json)) :=
  match value with
  | .obj fields => do
    rejectUnknownKeys fields allowed label
    return fields
  | _ => .error (label ++ " must be an object")

/-- `_unique_ids` -/
def uniqueIds (ids : List String) (label : String) : Except String Unit :=
  require ids.Nodup (label ++ " contains duplicate ids")

/-- The items of an array, each with its index. -/
def parseEach {β : Type} (parse : Nat → Json → Except String β) : Nat → List Json → Except String (List β)
  | _, [] => .ok []
  | index, item :: items => do
    let value ← parse index item
    let values ← parseEach parse (index + 1) items
    return value :: values

/-- The values that an `_enum` field may have, with their texts. -/
structure Enumeration (σ : Type) where
  all : List σ
  text : σ → String
  mem_all : ∀ a, a ∈ all
  text_injective : ∀ a b, text a = text b → a = b
  text_stripped : ∀ a, pyStrip (text a) = text a

section

-- The text of a list or a dictionary.
variable (repr : Json → String)

/-- `str(value or "").strip()` -/
def strippedText (value : Option Json) : String := pyStrip (Json.strOr repr "" value)

/-- `_identifier` -/
def identifier (value : Option Json) (fieldName : String) : Except String String :=
  if isIdentifier (strippedText repr value) then .ok (strippedText repr value)
  else .error (fieldName ++ " must match ^[A-Za-z0-9][A-Za-z0-9_.:-]\x7b0,79\x7d$")

/-- `_enum` -/
def enumOf {σ : Type} (values : Enumeration σ) (value : Option Json) (fieldName : String) :
    Except String σ :=
  match values.all.find? fun a => values.text a = strippedText repr value with
  | some a => .ok a
  | none => .error (fieldName ++ " must be one of: " ++ joined (values.all.map values.text))

/-- `_evidence_references` -/
def evidenceReferences (value : Option Json) (fieldName : String) (evidenceIds : List String) :
    Except String (List String) :=
  match value with
  | some (.arr items) => do
    let references ← parseEach (fun _ item => identifier repr (some item) fieldName) 0 items
    uniqueIds references fieldName
    require (∀ reference ∈ references, reference ∈ evidenceIds)
      (fieldName ++ " references unknown evidence ids: " ++
        joined (references.filter fun reference => reference ∉ evidenceIds))
    return references
  | _ => .error (fieldName ++ " must be an array")

end

/-! ### The items -/

inductive EvidenceKind where
  | source | test | build | security | config | worktree | runtime | other
deriving DecidableEq

inductive Severity where
  | p0 | p1 | p2 | p3
deriving DecidableEq

inductive HypothesisStatus where
  | open_ | confirmed | rejected
deriving DecidableEq

inductive RiskStatus where
  | open_ | resolved
deriving DecidableEq

inductive CriterionStatus where
  | pending | met | blocked
deriving DecidableEq

def evidenceKinds : Enumeration EvidenceKind where
  all := [.source, .test, .build, .security, .config, .worktree, .runtime, .other]
  text
    | .source => "source"
    | .test => "test"
    | .build => "build"
    | .security => "security"
    | .config => "config"
    | .worktree => "worktree"
    | .runtime => "runtime"
    | .other => "other"
  mem_all a := by cases a <;> decide
  text_injective a b same := by revert same; cases a <;> cases b <;> decide
  text_stripped a := by cases a <;> decide +kernel

def severities : Enumeration Severity where
  all := [.p0, .p1, .p2, .p3]
  text
    | .p0 => "P0"
    | .p1 => "P1"
    | .p2 => "P2"
    | .p3 => "P3"
  mem_all a := by cases a <;> decide
  text_injective a b same := by revert same; cases a <;> cases b <;> decide
  text_stripped a := by cases a <;> decide +kernel

def hypothesisStatuses : Enumeration HypothesisStatus where
  all := [.open_, .confirmed, .rejected]
  text
    | .open_ => "open"
    | .confirmed => "confirmed"
    | .rejected => "rejected"
  mem_all a := by cases a <;> decide
  text_injective a b same := by revert same; cases a <;> cases b <;> decide
  text_stripped a := by cases a <;> decide +kernel

def riskStatuses : Enumeration RiskStatus where
  all := [.open_, .resolved]
  text
    | .open_ => "open"
    | .resolved => "resolved"
  mem_all a := by cases a <;> decide
  text_injective a b same := by revert same; cases a <;> cases b <;> decide
  text_stripped a := by cases a <;> decide +kernel

def criterionStatuses : Enumeration CriterionStatus where
  all := [.pending, .met, .blocked]
  text
    | .pending => "pending"
    | .met => "met"
    | .blocked => "blocked"
  mem_all a := by cases a <;> decide
  text_injective a b same := by revert same; cases a <;> cases b <;> decide
  text_stripped a := by cases a <;> decide +kernel

/-- `DirectionEvidence` -/
structure DirectionEvidence where
  id : String
  kind : EvidenceKind
  summary : String
  source : String
deriving DecidableEq

/-- `DirectionHypothesis`, `DirectionRisk` and `DirectionCriterion`; only a risk has a severity. -/
structure DirectionItem (κ σ : Type) where
  id : String
  severity : κ
  statement : String
  status : σ
  evidenceIds : List String
deriving DecidableEq

/-- What the three lists of items differ in.  Items without a severity have the one value whose text is
empty.  `immutable` are the fields, and `terminal` the statuses, that an update does not change. -/
structure ItemKind (κ σ : Type) where
  field : String
  keys : List String
  severities : Enumeration κ
  statuses : Enumeration σ
  needsEvidence : σ → Bool
  immutable : List String
  terminal : σ → Bool
  statement_immutable : "statement" ∈ immutable
  severity_immutable : "severity" ∈ keys → "severity" ∈ immutable
  severity_empty : "severity" ∉ keys → ∀ k, severities.text k = ""
  keys_subset : ["id", "statement", "status", "evidence_ids"] ⊆ keys

def noSeverities : Enumeration Unit where
  all := [()]
  text _ := ""
  mem_all _ := List.mem_singleton_self _
  text_injective _ _ _ := rfl
  text_stripped _ := pyStrip_empty

def hypothesisKind : ItemKind Unit HypothesisStatus where
  field := "hypotheses"
  keys := ["id", "statement", "status", "evidence_ids"]
  severities := noSeverities
  statuses := hypothesisStatuses
  needsEvidence status := status ≠ .open_
  immutable := ["statement"]
  terminal status := status = .confirmed ∨ status = .rejected
  statement_immutable := by decide
  severity_immutable := by decide
  severity_empty _ _ := rfl
  keys_subset := by decide

def riskKind : ItemKind Severity RiskStatus where
  field := "unresolved_risks"
  keys := ["id", "severity", "statement", "status", "evidence_ids"]
  severities := severities
  statuses := riskStatuses
  needsEvidence status := status = .resolved
  immutable := ["severity", "statement"]
  terminal status := status = .resolved
  statement_immutable := by decide
  severity_immutable := by decide
  severity_empty missing := absurd (by decide) missing
  keys_subset := by decide

def criterionKind : ItemKind Unit CriterionStatus where
  field := "done_criteria"
  keys := ["id", "statement", "status", "evidence_ids"]
  severities := noSeverities
  statuses := criterionStatuses
  needsEvidence status := status = .met
  immutable := ["statement"]
  terminal status := status = .met ∨ status = .blocked
  statement_immutable := by decide
  severity_immutable := by decide
  severity_empty _ _ := rfl
  keys_subset := by decide

abbrev DirectionHypothesis := DirectionItem Unit HypothesisStatus
abbrev DirectionRisk := DirectionItem Severity RiskStatus
abbrev DirectionCriterion := DirectionItem Unit CriterionStatus

/-- `TaskDirectionState` -/
structure TaskDirectionState where
  objective : String
  hypotheses : List DirectionHypothesis
  evidence : List DirectionEvidence
  unresolvedRisks : List DirectionRisk
  doneCriteria : List DirectionCriterion
deriving DecidableEq

section

variable (repr : Json → String) {κ σ : Type}

/-- `_parse_evidence` -/
def parseEvidence (index : Nat) (payload : Json) : Except String DirectionEvidence := do
  let label := "state.evidence[" ++ index.repr ++ "]"
  let item ← itemObject payload label ["id", "kind", "summary", "source"]
  let id ← identifier repr (item.lookup "id") (label ++ ".id")
  let kind ← enumOf repr evidenceKinds (item.lookup "kind") (label ++ ".kind")
  let summary ← requiredText (item.lookup "summary") (label ++ ".summary") maxItemStatementChars
  let source ← requiredText (item.lookup "source") (label ++ ".source") maxSourceChars
  return { id, kind, summary, source }

/-- `_parse_hypothesis`, `_parse_risk` and `_parse_criterion` -/
def parseItem (kind : ItemKind κ σ) (evidenceIds : List String) (index : Nat) (payload : Json) :
    Except String (DirectionItem κ σ) := do
  let label := "state." ++ kind.field ++ "[" ++ index.repr ++ "]"
  let item ← itemObject payload label kind.keys
  let status ← enumOf repr kind.statuses (item.lookup "status") (label ++ ".status")
  let references ← evidenceReferences repr (item.lookup "evidence_ids") (label ++ ".evidence_ids")
    evidenceIds
  require (kind.needsEvidence status = true → references ≠ [])
    (label ++ ".evidence_ids is required when status=" ++ kind.statuses.text status)
  let id ← identifier repr (item.lookup "id") (label ++ ".id")
  let severity ← enumOf repr kind.severities (item.lookup "severity") (label ++ ".severity")
  let statement ← requiredText (item.lookup "statement") (label ++ ".statement") maxItemStatementChars
  return { id, severity, statement, status, evidenceIds := references }

/-- The list of items of one kind. -/
def parseItems (kind : ItemKind κ σ) (fields : List (String × Json)) (limit : Nat)
    (evidenceIds : List String) : Except String (List (DirectionItem κ σ)) := do
  let items ← requiredList (fields.lookup kind.field) ("state." ++ kind.field) limit
  parseEach (parseItem repr kind evidenceIds) 0 items

/-- `TaskDirectionState.from_payload` -/
def TaskDirectionState.fromPayload (payload : Json) : Except String TaskDirectionState := do
  match payload with
  | .obj fields =>
    rejectUnknownKeys fields
      ["objective", "hypotheses", "evidence", "unresolved_risks", "done_criteria"] "state"
    let objective ← requiredText (fields.lookup "objective") "state.objective" maxObjectiveChars
    let items ← requiredList (fields.lookup "evidence") "state.evidence" maxEvidence
    let evidence ← parseEach (parseEvidence repr) 0 items
    let evidenceIds := evidence.map DirectionEvidence.id
    uniqueIds evidenceIds "state.evidence"
    let hypotheses ← parseItems repr hypothesisKind fields maxHypotheses evidenceIds
    let unresolvedRisks ← parseItems repr riskKind fields maxRisks evidenceIds
    let doneCriteria ← parseItems repr criterionKind fields maxDoneCriteria evidenceIds
    uniqueIds (hypotheses.map DirectionItem.id) "state.hypotheses"
    uniqueIds (unresolvedRisks.map DirectionItem.id) "state.unresolved_risks"
    uniqueIds (doneCriteria.map DirectionItem.id) "state.done_criteria"
    require (doneCriteria ≠ []) "state.done_criteria must contain at least one item"
    return { objective, hypotheses, evidence, unresolvedRisks, doneCriteria }
  | _ => .error "state must be an object"

end

/-- `_item_payload` of an evidence item. -/
def DirectionEvidence.fields (item : DirectionEvidence) : List (String × Json) :=
  [("id", .str item.id), ("kind", .str (evidenceKinds.text item.kind)),
    ("summary", .str item.summary), ("source", .str item.source)]

/-- `_item_payload` of any other item. -/
def DirectionItem.fields {κ σ : Type} (kind : ItemKind κ σ) (item : DirectionItem κ σ) :
    List (String × Json) :=
  [("id", .str item.id)] ++
    (if "severity" ∈ kind.keys then [("severity", .str (kind.severities.text item.severity))]
      else []) ++
    [("statement", .str item.statement), ("status", .str (kind.statuses.text item.status)),
      ("evidence_ids", .arr (item.evidenceIds.map Json.str))]

/-- A payload of a state, of the payloads of its items. -/
def statePayload (objective : String)
    (hypotheses evidence unresolvedRisks doneCriteria : List (List (String × Json))) : Json :=
  .obj [("objective", .str objective), ("hypotheses", .arr (hypotheses.map Json.obj)),
    ("evidence", .arr (evidence.map Json.obj)),
    ("unresolved_risks", .arr (unresolvedRisks.map Json.obj)),
    ("done_criteria", .arr (doneCriteria.map Json.obj))]

/-- `to_payload` -/
def TaskDirectionState.toPayload (state : TaskDirectionState) : Json :=
  statePayload state.objective (state.hypotheses.map (DirectionItem.fields hypothesisKind))
    (state.evidence.map DirectionEvidence.fields)
    (state.unresolvedRisks.map (DirectionItem.fields riskKind))
    (state.doneCriteria.map (DirectionItem.fields criterionKind))

/-! ### What the checks leave -/

/-- A text that `_required_text` has returned. -/
structure IsText (maxChars : Nat) (text : String) : Prop where
  stripped : pyStrip text = text
  notEmpty : text ≠ ""
  short : text.length ≤ maxChars

structure DirectionEvidence.Valid (item : DirectionEvidence) : Prop where
  id : isIdentifier item.id = true
  summary : IsText maxItemStatementChars item.summary
  source : IsText maxSourceChars item.source

/-- The evidence that the item refers to is there. -/
structure DirectionItem.Valid {κ σ : Type} (kind : ItemKind κ σ) (evidenceIds : List String)
    (item : DirectionItem κ σ) : Prop where
  id : isIdentifier item.id = true
  statement : IsText maxItemStatementChars item.statement
  identifiers : ∀ reference ∈ item.evidenceIds, isIdentifier reference = true
  known : ∀ reference ∈ item.evidenceIds, reference ∈ evidenceIds
  nodup : item.evidenceIds.Nodup
  evidenced : kind.needsEvidence item.status = true → item.evidenceIds ≠ []

/-- A list of items of one kind. -/
structure ValidItems {κ σ : Type} (kind : ItemKind κ σ) (limit : Nat) (evidenceIds : List String)
    (items : List (DirectionItem κ σ)) : Prop where
  short : items.length ≤ limit
  nodup : (items.map DirectionItem.id).Nodup
  valid : ∀ item ∈ items, item.Valid kind evidenceIds

/-- What the checks leave of a state. -/
structure TaskDirectionState.Valid (state : TaskDirectionState) : Prop where
  objective : IsText maxObjectiveChars state.objective
  shortEvidence : state.evidence.length ≤ maxEvidence
  nodupEvidence : (state.evidence.map DirectionEvidence.id).Nodup
  evidence : ∀ item ∈ state.evidence, item.Valid
  hypotheses : ValidItems hypothesisKind maxHypotheses (state.evidence.map DirectionEvidence.id)
    state.hypotheses
  unresolvedRisks : ValidItems riskKind maxRisks (state.evidence.map DirectionEvidence.id)
    state.unresolvedRisks
  doneCriteria : ValidItems criterionKind maxDoneCriteria (state.evidence.map DirectionEvidence.id)
    state.doneCriteria
  notEmpty : state.doneCriteria ≠ []

/-! ### Reading one value -/

theorem stripList_of_forall {β : Type*} {p : β → Bool} {xs : List β} (all : ∀ x ∈ xs, p x = false) :
    stripList p xs = xs := by
  have front (ys : List β) (none : ∀ y ∈ ys, p y = false) : ys.dropWhile p = ys := by
    cases ys with
    | nil => rfl
    | cons y ys => exact List.dropWhile_cons_of_neg (by rw [none y List.mem_cons_self]; exact Bool.noConfusion)
  rw [stripList, front xs all, front _ fun y mem => all y (List.mem_reverse.mp mem), List.reverse_reverse]

theorem not_space_of_isIdentifierChar {c : Char} (isChar : isIdentifierChar c = true) :
    pyIsSpace c = false := by
  have range : 33 ≤ c.toNat ∧ c.toNat ≤ 126 := by
    unfold isIdentifierChar Char.isAlphanum Char.isAlpha Char.isUpper Char.isLower Char.isDigit at isChar
    simp only [Bool.or_eq_true, Bool.and_eq_true, decide_eq_true_eq, List.mem_cons, List.not_mem_nil,
      or_false, UInt32.le_iff_toNat_le] at isChar
    have value : c.toNat = c.val.toNat := rfl
    rcases isChar with letters | rfl | rfl | rfl | rfl
    · have : c.val.toNat ≤ 122 ∧ 48 ≤ c.val.toNat := by grind
      omega
    all_goals decide
  unfold pyIsSpace
  simp only [Bool.or_eq_false_iff, Bool.and_eq_false_iff, decide_eq_false_iff_not,
    List.contains_eq_mem, List.mem_cons, List.not_mem_nil, or_false]
  omega

theorem pyStrip_of_isIdentifier {text : String} (isId : isIdentifier text = true) :
    pyStrip text = text := by
  have all : ∀ c ∈ text.toList, pyIsSpace c = false := by
    intro c mem
    refine not_space_of_isIdentifierChar ?_
    unfold isIdentifier at isId
    split at isId
    next none => rw [none] at mem; cases mem
    next first rest isText =>
      rw [Bool.and_eq_true, Bool.and_eq_true] at isId
      rw [isText] at mem
      rcases List.mem_cons.mp mem with rfl | later
      · rw [isIdentifierChar, isId.1.1, Bool.true_or]
      · exact List.all_eq_true.mp isId.2 c later
  rw [pyStrip, stripList_of_forall all, String.ofList_toList]

section

variable {repr : Json → String}

@[simp] theorem strOr_str (text : String) : Json.strOr repr "" (some (.str text)) = text := by
  unfold Json.strOr
  rcases em (text = "") with rfl | notEmpty
  · rfl
  · exact if_pos (decide_eq_true notEmpty)

@[simp] theorem strippedText_str (text : String) : strippedText repr (some (.str text)) = pyStrip text :=
  congrArg pyStrip (strOr_str text)

@[simp] theorem strippedText_none : strippedText repr none = "" := rfl

variable {value : Option Json} {fieldName : String}

theorem identifier_eq_ok {id : String} :
    identifier repr value fieldName = .ok id ↔ isIdentifier id = true ∧ strippedText repr value = id := by
  unfold identifier
  split
  next isId =>
    rw [Except.ok.injEq]
    exact ⟨fun same => ⟨same ▸ isId, same⟩, fun both => both.2⟩
  next notId =>
    exact ⟨nofun, fun both => absurd (both.2 ▸ both.1) notId⟩

theorem identifier_str {id : String} (isId : isIdentifier id = true) (fieldName : String) :
    identifier repr (some (.str id)) fieldName = .ok id :=
  identifier_eq_ok.mpr ⟨isId, by rw [strippedText_str, pyStrip_of_isIdentifier isId]⟩

theorem requiredText_eq_ok {text : String} {maxChars : Nat} :
    requiredText value fieldName maxChars = .ok text ↔
      IsText maxChars text ∧ ∃ raw, value = some (.str raw) ∧ pyStrip raw = text := by
  unfold requiredText
  split
  next raw =>
    split
    next empty =>
      refine ⟨nofun, ?_⟩
      rintro ⟨isText, _, ⟨⟩, rfl⟩
      exact absurd empty isText.notEmpty
    next notEmpty =>
      split
      next long =>
        refine ⟨nofun, ?_⟩
        rintro ⟨isText, _, ⟨⟩, rfl⟩
        exact absurd isText.short (Nat.not_le.mpr long)
      next short =>
        constructor
        · rintro ⟨⟩
          exact ⟨⟨pyStrip_pyStrip raw, notEmpty, Nat.not_lt.mp short⟩, raw, rfl, rfl⟩
        · rintro ⟨-, _, ⟨⟩, rfl⟩
          rfl
  next other =>
    refine ⟨nofun, ?_⟩
    rintro ⟨-, raw, rfl, -⟩
    exact absurd rfl (other raw)

theorem requiredText_str {text : String} {maxChars : Nat} (isText : IsText maxChars text)
    (fieldName : String) : requiredText (some (.str text)) fieldName maxChars = .ok text :=
  requiredText_eq_ok.mpr ⟨isText, text, rfl, isText.stripped⟩

theorem enumOf_eq_ok {σ : Type} {values : Enumeration σ} {a : σ} :
    enumOf repr values value fieldName = .ok a ↔ strippedText repr value = values.text a := by
  unfold enumOf
  cases found : values.all.find? fun a => values.text a = strippedText repr value with
  | none =>
    have missing := List.find?_eq_none.mp found a (values.mem_all a)
    exact ⟨nofun, fun same => absurd (decide_eq_true same.symm) missing⟩
  | some b =>
    have same : values.text b = strippedText repr value := by simpa using List.find?_some found
    rw [Except.ok.injEq, ← same]
    exact ⟨fun eq => eq ▸ rfl, values.text_injective b a⟩

theorem enumOf_text {σ : Type} (values : Enumeration σ) (a : σ) (fieldName : String) :
    enumOf repr values (some (.str (values.text a))) fieldName = .ok a :=
  enumOf_eq_ok.mpr (by rw [strippedText_str, values.text_stripped])

variable {index limit : Nat} {items : List Json}

theorem parseEach_eq_ok {β : Type} {parse : Nat → Json → Except String β} {values : List β}
    (parsed : parseEach parse index items = .ok values) :
    List.Forall₂ (fun item value => ∃ index, parse index item = .ok value) items values := by
  induction items generalizing index values with
  | nil =>
    cases parsed
    exact .nil
  | cons item items ih =>
    obtain ⟨value, isValue, parsed⟩ := bind_eq_ok.mp parsed
    obtain ⟨rest, isRest, same⟩ := bind_eq_ok.mp parsed
    cases same
    exact .cons ⟨index, isValue⟩ (ih isRest)

theorem exists_of_mem_parseEach {β : Type} {parse : Nat → Json → Except String β} {values : List β}
    (parsed : parseEach parse index items = .ok values) {value : β} (mem : value ∈ values) :
    ∃ item index, parse index item = .ok value := by
  have each := parseEach_eq_ok parsed
  clear parsed
  induction each with
  | nil => cases mem
  | cons isValue _ ih =>
    rcases List.mem_cons.mp mem with rfl | later
    · exact ⟨_, isValue⟩
    · exact ih later

theorem parseEach_map {β : Type} {parse : Nat → Json → Except String β} {write : β → Json}
    {values : List β} (reads : ∀ value ∈ values, ∀ index, parse index (write value) = .ok value)
    (index : Nat) : parseEach parse index (values.map write) = .ok values := by
  induction values generalizing index with
  | nil => rfl
  | cons value values ih =>
    rw [List.map_cons, parseEach, reads value List.mem_cons_self,
      ih (fun v mem => reads v (List.mem_cons_of_mem value mem))]
    rfl

theorem evidenceReferences_eq_ok {evidenceIds references : List String}
    (read : evidenceReferences repr value fieldName evidenceIds = .ok references) :
    (∀ reference ∈ references, isIdentifier reference = true) ∧ references.Nodup ∧
      ∀ reference ∈ references, reference ∈ evidenceIds := by
  unfold evidenceReferences at read
  split at read
  next items =>
    obtain ⟨found, isFound, read⟩ := bind_eq_ok.mp read
    obtain ⟨nodup, read⟩ := require_bind_eq_ok.mp read
    obtain ⟨known, same⟩ := require_bind_eq_ok.mp read
    cases same
    refine ⟨fun reference mem => ?_, nodup, known⟩
    obtain ⟨item, _, isReference⟩ := exists_of_mem_parseEach isFound mem
    exact (identifier_eq_ok.mp isReference).1
  next => cases read

theorem evidenceReferences_map {references evidenceIds : List String}
    (identifiers : ∀ reference ∈ references, isIdentifier reference = true) (nodup : references.Nodup)
    (known : ∀ reference ∈ references, reference ∈ evidenceIds) (fieldName : String) :
    evidenceReferences repr (some (.arr (references.map Json.str))) fieldName evidenceIds =
      .ok references := by
  have read : parseEach (fun _ item => identifier repr (some item) fieldName) 0
      (references.map Json.str) = .ok references :=
    @parseEach_map _ (fun _ item => identifier repr (some item) fieldName) Json.str references
      (fun reference mem _ => identifier_str (identifiers reference mem) fieldName) 0
  unfold evidenceReferences
  dsimp only
  rw [read]
  exact require_bind_eq_ok.mpr ⟨nodup, require_bind_eq_ok.mpr ⟨known, rfl⟩⟩

/-! ### Reading one item -/

variable {fields : List (String × Json)}

theorem itemObject_eq_ok {value : Json} {label : String} {allowed : List String} :
    itemObject value label allowed = .ok fields ↔
      value = .obj fields ∧ ∀ entry ∈ fields, entry.1 ∈ allowed := by
  cases value with
  | obj own =>
    constructor
    · intro read
      obtain ⟨known, same⟩ := require_bind_eq_ok.mp read
      cases same
      exact ⟨rfl, known⟩
    · rintro ⟨⟨⟩, known⟩
      exact require_bind_eq_ok.mpr ⟨known, rfl⟩
  | _ =>
    constructor
    · intro read
      cases read
    · rintro ⟨⟨⟩, _⟩

variable {payload : Json}

theorem parseEvidence_valid {item : DirectionEvidence}
    (parsed : parseEvidence repr index payload = .ok item) : item.Valid := by
  obtain ⟨fields, -, parsed⟩ := bind_eq_ok.mp parsed
  obtain ⟨id, isId, parsed⟩ := bind_eq_ok.mp parsed
  obtain ⟨kind, -, parsed⟩ := bind_eq_ok.mp parsed
  obtain ⟨summary, isSummary, parsed⟩ := bind_eq_ok.mp parsed
  obtain ⟨source, isSource, same⟩ := bind_eq_ok.mp parsed
  cases same
  exact ⟨(identifier_eq_ok.mp isId).1, (requiredText_eq_ok.mp isSummary).1,
    (requiredText_eq_ok.mp isSource).1⟩

theorem parseEvidence_fields {item : DirectionEvidence} (valid : item.Valid) (index : Nat) :
    parseEvidence repr index (.obj item.fields) = .ok item := by
  have known : ∀ entry ∈ item.fields, entry.1 ∈ ["id", "kind", "summary", "source"] := by
    intro entry mem
    have names : entry.1 ∈ item.fields.map Prod.fst := List.mem_map_of_mem mem
    exact names
  refine bind_eq_ok.mpr ⟨item.fields, itemObject_eq_ok.mpr ⟨rfl, known⟩, ?_⟩
  refine bind_eq_ok.mpr ⟨item.id, identifier_str valid.id _, ?_⟩
  refine bind_eq_ok.mpr ⟨item.kind, enumOf_text evidenceKinds item.kind _, ?_⟩
  refine bind_eq_ok.mpr ⟨item.summary, requiredText_str valid.summary _, ?_⟩
  exact bind_eq_ok.mpr ⟨item.source, requiredText_str valid.source _, rfl⟩

variable {κ σ : Type} {kind : ItemKind κ σ} {evidenceIds : List String} {index : Nat}

/-- What is read of an item. -/
structure ReadsItem (repr : Json → String) (kind : ItemKind κ σ) (fields : List (String × Json))
    (item : DirectionItem κ σ) : Prop where
  id : strippedText repr (fields.lookup "id") = item.id
  severity : strippedText repr (fields.lookup "severity") = kind.severities.text item.severity
  statement : ∃ raw, fields.lookup "statement" = some (.str raw) ∧ pyStrip raw = item.statement
  status : strippedText repr (fields.lookup "status") = kind.statuses.text item.status

variable {item : DirectionItem κ σ}

theorem parseItem_eq_ok (parsed : parseItem repr kind evidenceIds index payload = .ok item) :
    item.Valid kind evidenceIds ∧ ∃ fields, payload = .obj fields ∧ ReadsItem repr kind fields item := by
  obtain ⟨fields, isObject, parsed⟩ := bind_eq_ok.mp parsed
  obtain ⟨status, isStatus, parsed⟩ := bind_eq_ok.mp parsed
  obtain ⟨references, isReferences, parsed⟩ := bind_eq_ok.mp parsed
  obtain ⟨evidenced, parsed⟩ := require_bind_eq_ok.mp parsed
  obtain ⟨id, isId, parsed⟩ := bind_eq_ok.mp parsed
  obtain ⟨severity, isSeverity, parsed⟩ := bind_eq_ok.mp parsed
  obtain ⟨statement, isStatement, same⟩ := bind_eq_ok.mp parsed
  cases same
  obtain ⟨identifiers, nodup, known⟩ := evidenceReferences_eq_ok isReferences
  obtain ⟨isIdentifier, idText⟩ := identifier_eq_ok.mp isId
  obtain ⟨isText, raw, isRaw, stripped⟩ := requiredText_eq_ok.mp isStatement
  exact ⟨⟨isIdentifier, isText, identifiers, known, nodup, evidenced⟩, fields,
    (itemObject_eq_ok.mp isObject).1, idText, enumOf_eq_ok.mp isSeverity, ⟨raw, isRaw, stripped⟩,
    enumOf_eq_ok.mp isStatus⟩

theorem lookup_fields (item : DirectionItem κ σ) :
    (item.fields kind).lookup "id" = some (.str item.id) ∧
      (item.fields kind).lookup "severity" =
        (if "severity" ∈ kind.keys then some (.str (kind.severities.text item.severity)) else none) ∧
      (item.fields kind).lookup "statement" = some (.str item.statement) ∧
      (item.fields kind).lookup "status" = some (.str (kind.statuses.text item.status)) ∧
      (item.fields kind).lookup "evidence_ids" = some (.arr (item.evidenceIds.map Json.str)) := by
  unfold DirectionItem.fields
  split
  · exact ⟨rfl, rfl, rfl, rfl, rfl⟩
  · exact ⟨rfl, rfl, rfl, rfl, rfl⟩

theorem keys_fields (item : DirectionItem κ σ) : ∀ entry ∈ item.fields kind, entry.1 ∈ kind.keys := by
  unfold DirectionItem.fields
  have subset := kind.keys_subset
  split
  next severity =>
    intro entry mem
    have names : entry.1 ∈ ["id", "severity", "statement", "status", "evidence_ids"] :=
      List.mem_map_of_mem (f := Prod.fst) mem
    grind
  next =>
    intro entry mem
    have names : entry.1 ∈ ["id", "statement", "status", "evidence_ids"] :=
      List.mem_map_of_mem (f := Prod.fst) mem
    exact subset names

theorem readsItem_fields (isId : isIdentifier item.id = true)
    (isText : IsText maxItemStatementChars item.statement) :
    ReadsItem repr kind (item.fields kind) item := by
  obtain ⟨id, severity, statement, status, -⟩ := @lookup_fields _ _ kind item
  refine ⟨?_, ?_, ⟨item.statement, statement, isText.stripped⟩, ?_⟩
  · rw [id, strippedText_str, pyStrip_of_isIdentifier isId]
  · rw [severity]
    split
    next => rw [strippedText_str, kind.severities.text_stripped]
    next missing => rw [strippedText_none, kind.severity_empty missing]
  · rw [status, strippedText_str, kind.statuses.text_stripped]

theorem parseItem_fields (valid : item.Valid kind evidenceIds) (index : Nat) :
    parseItem repr kind evidenceIds index (.obj (item.fields kind)) = .ok item := by
  obtain ⟨id, -, statement, status, references⟩ := @lookup_fields _ _ kind item
  have reads : ReadsItem repr kind (item.fields kind) item := readsItem_fields valid.id valid.statement
  refine bind_eq_ok.mpr ⟨item.fields kind, itemObject_eq_ok.mpr ⟨rfl, keys_fields item⟩, ?_⟩
  refine bind_eq_ok.mpr ⟨item.status, enumOf_eq_ok.mpr reads.status, ?_⟩
  refine bind_eq_ok.mpr ⟨item.evidenceIds, ?_, ?_⟩
  · rw [references]
    exact evidenceReferences_map valid.identifiers valid.nodup valid.known _
  refine require_bind_eq_ok.mpr ⟨valid.evidenced, ?_⟩
  refine bind_eq_ok.mpr ⟨item.id, identifier_eq_ok.mpr ⟨valid.id, reads.id⟩, ?_⟩
  refine bind_eq_ok.mpr ⟨item.severity, enumOf_eq_ok.mpr reads.severity, ?_⟩
  refine bind_eq_ok.mpr ⟨item.statement, ?_, rfl⟩
  rw [statement]
  exact requiredText_str valid.statement _

/-! ### Reading a state -/

theorem requiredList_eq_ok :
    requiredList value fieldName limit = .ok items ↔ value = some (.arr items) ∧ items.length ≤ limit := by
  unfold requiredList
  split
  next own =>
    rw [ite_error_eq_ok, Except.ok.injEq]
    constructor
    · rintro ⟨short, rfl⟩
      exact ⟨rfl, Nat.not_lt.mp short⟩
    · rintro ⟨⟨⟩, short⟩
      exact ⟨Nat.not_lt.mpr short, rfl⟩
  next other =>
    refine ⟨nofun, ?_⟩
    rintro ⟨rfl, -⟩
    exact absurd rfl (other items)

/-- What `from_payload` reads of a payload. -/
structure ReadsState (repr : Json → String) (fields : List (String × Json)) (state : TaskDirectionState) :
    Prop where
  known : ∀ entry ∈ fields, entry.1 ∈
    ["objective", "hypotheses", "evidence", "unresolved_risks", "done_criteria"]
  objective : requiredText (fields.lookup "objective") "state.objective" maxObjectiveChars =
    .ok state.objective
  evidence : ∃ payloads, fields.lookup "evidence" = some (.arr payloads) ∧
    payloads.length ≤ maxEvidence ∧ parseEach (parseEvidence repr) 0 payloads = .ok state.evidence
  nodupEvidence : (state.evidence.map DirectionEvidence.id).Nodup
  hypotheses : parseItems repr hypothesisKind fields maxHypotheses
    (state.evidence.map DirectionEvidence.id) = .ok state.hypotheses
  unresolvedRisks : parseItems repr riskKind fields maxRisks
    (state.evidence.map DirectionEvidence.id) = .ok state.unresolvedRisks
  doneCriteria : parseItems repr criterionKind fields maxDoneCriteria
    (state.evidence.map DirectionEvidence.id) = .ok state.doneCriteria
  nodupHypotheses : (state.hypotheses.map DirectionItem.id).Nodup
  nodupRisks : (state.unresolvedRisks.map DirectionItem.id).Nodup
  nodupCriteria : (state.doneCriteria.map DirectionItem.id).Nodup
  notEmpty : state.doneCriteria ≠ []

variable {state : TaskDirectionState}

theorem fromPayload_eq_ok :
    TaskDirectionState.fromPayload repr payload = .ok state ↔
      ∃ fields, payload = .obj fields ∧ ReadsState repr fields state := by
  cases payload with
  | obj fields =>
    constructor
    · intro read
      obtain ⟨known, read⟩ := require_bind_eq_ok.mp read
      obtain ⟨objective, isObjective, read⟩ := bind_eq_ok.mp read
      obtain ⟨payloads, isList, read⟩ := bind_eq_ok.mp read
      obtain ⟨evidence, isEvidence, read⟩ := bind_eq_ok.mp read
      obtain ⟨nodupEvidence, read⟩ := require_bind_eq_ok.mp read
      obtain ⟨hypotheses, areHypotheses, read⟩ := bind_eq_ok.mp read
      obtain ⟨risks, areRisks, read⟩ := bind_eq_ok.mp read
      obtain ⟨criteria, areCriteria, read⟩ := bind_eq_ok.mp read
      obtain ⟨nodupHypotheses, read⟩ := require_bind_eq_ok.mp read
      obtain ⟨nodupRisks, read⟩ := require_bind_eq_ok.mp read
      obtain ⟨nodupCriteria, read⟩ := require_bind_eq_ok.mp read
      obtain ⟨notEmpty, same⟩ := require_bind_eq_ok.mp read
      cases same
      obtain ⟨isLookup, short⟩ := requiredList_eq_ok.mp isList
      exact ⟨fields, rfl, known, isObjective, ⟨payloads, isLookup, short, isEvidence⟩, nodupEvidence,
        areHypotheses, areRisks, areCriteria, nodupHypotheses, nodupRisks, nodupCriteria, notEmpty⟩
    · rintro ⟨_, ⟨⟩, reads⟩
      obtain ⟨payloads, isLookup, short, isEvidence⟩ := reads.evidence
      refine require_bind_eq_ok.mpr ⟨reads.known, ?_⟩
      refine bind_eq_ok.mpr ⟨_, reads.objective, ?_⟩
      refine bind_eq_ok.mpr ⟨payloads, requiredList_eq_ok.mpr ⟨isLookup, short⟩, ?_⟩
      refine bind_eq_ok.mpr ⟨_, isEvidence, ?_⟩
      refine require_bind_eq_ok.mpr ⟨reads.nodupEvidence, ?_⟩
      refine bind_eq_ok.mpr ⟨_, reads.hypotheses, ?_⟩
      refine bind_eq_ok.mpr ⟨_, reads.unresolvedRisks, ?_⟩
      refine bind_eq_ok.mpr ⟨_, reads.doneCriteria, ?_⟩
      refine require_bind_eq_ok.mpr ⟨reads.nodupHypotheses, ?_⟩
      refine require_bind_eq_ok.mpr ⟨reads.nodupRisks, ?_⟩
      refine require_bind_eq_ok.mpr ⟨reads.nodupCriteria, ?_⟩
      exact require_bind_eq_ok.mpr ⟨reads.notEmpty, rfl⟩
  | _ =>
    constructor
    · intro read
      cases read
    · rintro ⟨_, ⟨⟩, _⟩

theorem parseItems_eq_ok {items : List (DirectionItem κ σ)} :
    parseItems repr kind fields limit evidenceIds = .ok items ↔
      ∃ payloads, fields.lookup kind.field = some (.arr payloads) ∧ payloads.length ≤ limit ∧
        parseEach (parseItem repr kind evidenceIds) 0 payloads = .ok items := by
  constructor
  · intro read
    obtain ⟨payloads, isList, parsed⟩ := bind_eq_ok.mp read
    obtain ⟨isLookup, short⟩ := requiredList_eq_ok.mp isList
    exact ⟨payloads, isLookup, short, parsed⟩
  · rintro ⟨payloads, isLookup, short, parsed⟩
    exact bind_eq_ok.mpr ⟨payloads, requiredList_eq_ok.mpr ⟨isLookup, short⟩, parsed⟩

theorem parseItems_valid {items : List (DirectionItem κ σ)}
    (read : parseItems repr kind fields limit evidenceIds = .ok items)
    (nodup : (items.map DirectionItem.id).Nodup) : ValidItems kind limit evidenceIds items := by
  obtain ⟨payloads, -, short, parsed⟩ := parseItems_eq_ok.mp read
  refine ⟨(parseEach_eq_ok parsed).length_eq ▸ short, nodup, fun item mem => ?_⟩
  obtain ⟨payload, index, isItem⟩ := exists_of_mem_parseEach parsed mem
  exact (parseItem_eq_ok isItem).1

/-- What is accepted is valid. -/
theorem fromPayload_valid (read : TaskDirectionState.fromPayload repr payload = .ok state) :
    state.Valid := by
  obtain ⟨fields, -, reads⟩ := fromPayload_eq_ok.mp read
  obtain ⟨payloads, -, short, isEvidence⟩ := reads.evidence
  refine ⟨(requiredText_eq_ok.mp reads.objective).1, (parseEach_eq_ok isEvidence).length_eq ▸ short,
    reads.nodupEvidence, fun item mem => ?_, parseItems_valid reads.hypotheses reads.nodupHypotheses,
    parseItems_valid reads.unresolvedRisks reads.nodupRisks,
    parseItems_valid reads.doneCriteria reads.nodupCriteria, reads.notEmpty⟩
  obtain ⟨payload, index, isItem⟩ := exists_of_mem_parseEach isEvidence mem
  exact parseEvidence_valid isItem

theorem parseItems_fields {items : List (DirectionItem κ σ)}
    (isLookup : fields.lookup kind.field =
      some (.arr ((items.map (DirectionItem.fields kind)).map Json.obj)))
    (valid : ValidItems kind limit evidenceIds items) :
    parseItems repr kind fields limit evidenceIds = .ok items := by
  refine parseItems_eq_ok.mpr ⟨_, isLookup, ?_, ?_⟩
  · rw [List.length_map, List.length_map]
    exact valid.short
  · rw [List.map_map]
    exact parseEach_map (fun item mem index => parseItem_fields (valid.valid item mem) index) 0

/-- A valid state is read back as it is. -/
theorem fromPayload_toPayload (valid : state.Valid) :
    TaskDirectionState.fromPayload repr state.toPayload = .ok state := by
  refine fromPayload_eq_ok.mpr ⟨_, rfl, ?_⟩
  refine ⟨fun entry mem => ?_, requiredText_str valid.objective _, ⟨_, rfl, ?_, ?_⟩, valid.nodupEvidence,
    parseItems_fields rfl valid.hypotheses, parseItems_fields rfl valid.unresolvedRisks,
    parseItems_fields rfl valid.doneCriteria, valid.hypotheses.nodup, valid.unresolvedRisks.nodup,
    valid.doneCriteria.nodup, valid.notEmpty⟩
  · exact List.mem_map_of_mem (f := Prod.fst) mem
  · rw [List.length_map, List.length_map]
    exact valid.shortEvidence
  · rw [List.map_map]
    exact parseEach_map (fun item mem index => parseEvidence_fields (valid.evidence item mem) index) 0

end

end AgentPark.Agents
