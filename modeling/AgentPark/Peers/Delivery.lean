import AgentPark.Lib.Execution
import AgentPark.Lib.JsonSort

/-!
# Delivery receipts

A peer that delivers a message calls `DeliveryJournal.accept`, which records the intent in one
transaction, runs the side effect `enqueue` and records its result in a second transaction.  Calls
overlap, and each may die anywhere between its steps.
-/

namespace AgentPark.Peers

open Lib

/-- A dictionary of JSON values: a payload or a result. -/
structure Document where
  fields : List (String × Json)
  unique : (Json.obj fields).UniqueKeys
deriving DecidableEq

/-- The value up to the order of its entries. -/
def Document.value (document : Document) : Json := (Json.obj document.fields).sortKeys

/-- `canonical` -/
def canonical (payload : Document) : String := String.ofList (dumpsSorted (.obj payload.fields))

theorem canonical_injective {p q : Document} (same : canonical p = canonical q) :
    p.value = q.value := by
  have texts := congrArg String.toList same
  rw [canonical, canonical, String.toList_ofList, String.toList_ofList] at texts
  exact dumpsSorted_injective p.unique q.unique texts

/-- `{**result, "duplicate": True}` -/
def Document.marked (result : Document) : Document where
  fields := dictSet result.fields "duplicate" (.bool true)
  unique := by
    obtain ⟨nodup, values⟩ := Json.uniqueKeys_obj.mp result.unique
    exact Json.uniqueKeys_obj.mpr ⟨nodup_dictSet nodup _ _,
      forall_mem_dictSet (P := Json.UniqueKeys) values _ (Json.uniqueKeys_bool true)⟩

/-- `json.dumps(result, ensure_ascii=False)` -/
def Document.text (result : Document) : String := String.ofList (dumps (.obj result.fields))

/-- `json.loads(text)` of a text that has to be a dictionary. -/
def Document.ofText (text : String) : Option Document :=
  match loaded : loads text.toList with
  | some (.obj fields) => some ⟨fields, uniqueKeys_loads loaded⟩
  | _ => none

@[simp] theorem Document.ofText_text (result : Document) : ofText result.text = some result := by
  have loaded : loads result.text.toList = some (.obj result.fields) := by
    rw [text, String.toList_ofList]
    exact loads_dumps result.unique
  unfold ofText
  split
  · rename_i fields found
    rw [loaded] at found
    cases found
    rfl
  · rename_i other
    exact absurd loaded (other _)

/-! ### The journal -/

/-- A row of `deliveries`. -/
structure Row where
  digest : String
  result : Option String := none
deriving DecidableEq

inductive Refusal where
  /-- "message_id was already used for different content." -/
  | differentContent
  /-- "Prior delivery outcome is unknown. Check the target conversation; it will not be replayed." -/
  | unknownOutcome
  /-- The recorded result is not a dictionary. -/
  | badRecord
deriving DecidableEq

/-- The arguments of a call of `accept`. -/
structure Call where
  deliveryId : String
  payload : Document
deriving DecidableEq

/-- The rows of the table, by their identifiers. -/
abbrev Deliveries : Type := List (String × Row)

/-- What the first transaction comes to. -/
inductive Admission where
  | raises (refusal : Refusal)
  | duplicate (answer : Document)
  | fresh (deliveries : Deliveries)

section

variable (sha256 : String → String)

/-- `hashlib.sha256(canonical(payload)).hexdigest()` -/
def Call.digest (call : Call) : String := sha256 (canonical call.payload)

/-- The first transaction of `accept`. -/
def reserve (deliveries : Deliveries) (call : Call) : Admission :=
  match deliveries.lookup call.deliveryId with
  | some row =>
    if row.digest ≠ call.digest sha256 then .raises .differentContent
    else
      match row.result with
      | none => .raises .unknownOutcome
      | some text =>
        match Document.ofText text with
        | some result => .duplicate result.marked
        | none => .raises .badRecord
  | none => .fresh (deliveries ++ [(call.deliveryId, { digest := call.digest sha256 })])

/-- The second transaction of `accept`. -/
def record (deliveries : Deliveries) (deliveryId : String) (result : Document) : Deliveries :=
  deliveries.map fun entry =>
    if entry.1 = deliveryId then (entry.1, { entry.2 with result := some result.text }) else entry

inductive Phase where
  | idle
  | begun (call : Call)
  /-- The first transaction has recorded the intent. -/
  | admitted (call : Call)
  | enqueuing (call : Call)
  | enqueued (call : Call) (result : Document)
  /-- The second transaction has recorded the result. -/
  | recorded (call : Call) (result : Document)
  | returned (call : Call) (answer : Document)
  | raised (call : Call)

/-- A run of `enqueue`: by which call, for what, and its result when it has one. -/
structure EnqueueRun where
  caller : Nat
  call : Call
  result : Option Document

/-- The journal and the calls on it.  `runs` and `first` only watch: all runs of `enqueue`, and the
payload each delivery was first recorded with. -/
structure State where
  deliveries : Deliveries
  phase : Nat → Phase
  runs : List EnqueueRun
  first : String → Option Document

def State.empty : State where
  deliveries := []
  phase _ := .idle
  runs := []
  first _ := none

/-- What can happen.  `fail` is an exception or a crash that ends a call where it is. -/
inductive Action where
  | begin (caller : Nat) (call : Call)
  | reserve (caller : Nat)
  | enqueue (caller : Nat)
  | finish (caller : Nat) (result : Document)
  | record (caller : Nat)
  | answer (caller : Nat)
  | fail (caller : Nat)

/-- The call is in another phase. -/
def State.go (s : State) (caller : Nat) (phase : Phase) : State :=
  { s with phase := Function.update s.phase caller phase }

/-- The run of a caller has its result. -/
def noteResult (caller : Nat) (result : Document) (run : EnqueueRun) : EnqueueRun :=
  if run.caller = caller then { run with result := some result } else run

/-- The journal with the calls on it. -/
def step (s : State) : Action → Option State
  | .begin caller call =>
    match s.phase caller with
    | .idle => some (s.go caller (.begun call))
    | _ => none
  | .reserve caller =>
    match s.phase caller with
    | .begun call =>
      match reserve sha256 s.deliveries call with
      | .raises _ => some (s.go caller (.raised call))
      | .duplicate answer => some (s.go caller (.returned call answer))
      | .fresh deliveries =>
        some { s.go caller (.admitted call) with
          deliveries
          first := Function.update s.first call.deliveryId (some call.payload) }
    | _ => none
  | .enqueue caller =>
    match s.phase caller with
    | .admitted call =>
      some { s.go caller (.enqueuing call) with runs := s.runs ++ [⟨caller, call, none⟩] }
    | _ => none
  | .finish caller result =>
    match s.phase caller with
    | .enqueuing call =>
      some { s.go caller (.enqueued call result) with
        runs := s.runs.map (noteResult caller result) }
    | _ => none
  | .record caller =>
    match s.phase caller with
    | .enqueued call result =>
      some { s.go caller (.recorded call result) with
        deliveries := record s.deliveries call.deliveryId result }
    | _ => none
  | .answer caller =>
    match s.phase caller with
    | .recorded call result => some (s.go caller (.returned call result))
    | _ => none
  | .fail caller =>
    match s.phase caller with
    | .begun call | .admitted call | .enqueuing call | .enqueued call _ | .recorded call _ =>
      some (s.go caller (.raised call))
    | _ => none

/-! ### What a step can do -/

/-- The call that may still run or record a delivery. -/
def Phase.owned : Phase → Option Call
  | .admitted call | .enqueuing call | .enqueued call _ => some call
  | _ => none

/-- A run fits the phase of its caller. -/
def Phase.fits (run : EnqueueRun) : Phase → Prop
  | .enqueuing call => run.call = call ∧ run.result = none
  | .enqueued call result | .recorded call result | .returned call result =>
    run.call = call ∧ run.result = some result
  | .raised call => run.call = call
  | _ => False

variable {sha256 : String → String} {s t : State}

theorem lookup_record {deliveries : Deliveries} (deliveryId id : String) (result : Document) :
    (record deliveries deliveryId result).lookup id =
      if id = deliveryId then
        (deliveries.lookup id).map fun row => { row with result := some result.text }
      else deliveries.lookup id := by
  unfold record
  induction deliveries with
  | nil => simp
  | cons entry rest ih =>
    rw [List.map_cons, List.lookup_cons, List.lookup_cons, ih]
    by_cases here : entry.1 = deliveryId
    · rw [if_pos here]
      by_cases same : id = deliveryId
      · simp [same, here]
      · have other : (id == entry.1) = false := beq_false_of_ne (here ▸ same)
        rw [other, if_neg same]
    · rw [if_neg here]
      by_cases same : id = entry.1
      · have notId : id ≠ deliveryId := same ▸ here
        simp [same, here]
      · have other : (id == entry.1) = false := beq_false_of_ne same
        rw [other]

/-- The answer of a call is the result of the one run, marked when another call ran it, and the
call's payload has the digest the delivery was recorded with. -/
def Answered (sha256 : String → String) (s : State) (caller : Nat) (call : Call)
    (answer : Document) : Prop :=
  (s.first call.deliveryId).map (fun payload => sha256 (canonical payload)) =
      some (sha256 (canonical call.payload)) ∧
    ∃ run ∈ s.runs, run.call.deliveryId = call.deliveryId ∧ ∃ result, run.result = some result ∧
      answer = if run.caller = caller then result else result.marked

/-- What is known of the deliveries and of the calls on them. -/
structure Receipts (sha256 : String → String) (s : State) : Prop where
  /-- A delivery has a row when it has been recorded, with the digest of what it was recorded with. -/
  rows : ∀ id, (s.deliveries.lookup id).map Row.digest =
    (s.first id).map fun payload => sha256 (canonical payload)
  /-- The owner of a delivery is the call that recorded it, and no result is recorded yet. -/
  owner : ∀ caller call, (s.phase caller).owned = some call →
    s.first call.deliveryId = some call.payload ∧
      ∀ row, s.deliveries.lookup call.deliveryId = some row → row.result = none
  alone : ∀ caller call caller' call', (s.phase caller).owned = some call →
    (s.phase caller').owned = some call' → call.deliveryId = call'.deliveryId → caller = caller'
  once : (s.runs.map fun run => run.call.deliveryId).Nodup
  /-- A delivery that is about to run has not run. -/
  unrun : ∀ caller call, s.phase caller = .admitted call →
    ∀ run ∈ s.runs, run.call.deliveryId ≠ call.deliveryId
  fits : ∀ run ∈ s.runs, (s.phase run.caller).fits run
  hasRun : ∀ caller call, (s.phase caller).owned = some call → s.phase caller ≠ .admitted call →
    ∃ run ∈ s.runs, run.caller = caller
  firstRun : ∀ run ∈ s.runs, s.first run.call.deliveryId = some run.call.payload
  /-- What is recorded is the result of the run. -/
  result : ∀ id row text, s.deliveries.lookup id = some row → row.result = some text →
    ∃ run ∈ s.runs, run.call.deliveryId = id ∧ ∃ result, run.result = some result ∧
      text = result.text
  answer : ∀ caller call answer, s.phase caller = .recorded call answer ∨
    s.phase caller = .returned call answer → Answered sha256 s caller call answer

theorem receipts_empty : Receipts sha256 .empty where
  rows _ := rfl
  owner _ _ owned := nomatch owned
  alone _ _ _ _ owned := nomatch owned
  once := List.nodup_nil
  unrun _ _ admitted := nomatch admitted
  fits _ mem := nomatch mem
  hasRun _ _ owned := nomatch owned
  firstRun _ mem := nomatch mem
  result _ _ _ found := nomatch found
  answer _ _ _ phase := by rcases phase with phase | phase <;> cases phase

theorem phase_go {caller other : Nat} {phase : Phase} :
    (s.go caller phase).phase other = if other = caller then phase else s.phase other := by
  exact Function.update_apply s.phase caller phase other

theorem Receipts.go (kept : Receipts sha256 s) {caller : Nat} {phase : Phase}
    (free : phase.owned = none) (fits : ∀ run ∈ s.runs, run.caller = caller → phase.fits run)
    (answers : ∀ call answer, phase = .recorded call answer ∨ phase = .returned call answer →
      Answered sha256 s caller call answer) : Receipts sha256 (s.go caller phase) := by
  have owned : ∀ other call, ((s.go caller phase).phase other).owned = some call →
      other ≠ caller ∧ (s.phase other).owned = some call := by
    intro other call isOwned
    rw [phase_go] at isOwned
    split at isOwned
    · rw [free] at isOwned
      cases isOwned
    · exact ⟨by assumption, isOwned⟩
  refine ⟨kept.rows, ?_, ?_, kept.once, ?_, ?_, ?_, kept.firstRun, kept.result, ?_⟩
  · intro other call isOwned
    exact kept.owner other call (owned other call isOwned).2
  · intro one call two call' isOwned isOwned'
    exact kept.alone one call two call' (owned one call isOwned).2 (owned two call' isOwned').2
  · intro other call admitted
    rw [phase_go] at admitted
    split at admitted
    · rw [admitted] at free
      cases free
    · exact kept.unrun other call admitted
  · intro run mem
    rw [phase_go]
    split
    · exact fits run mem (by assumption)
    · exact kept.fits run mem
  · intro other call isOwned notAdmitted
    obtain ⟨notCaller, isOwned⟩ := owned other call isOwned
    rw [phase_go, if_neg notCaller] at notAdmitted
    exact kept.hasRun other call isOwned notAdmitted
  · intro other call answer isAnswer
    rw [phase_go] at isAnswer
    split at isAnswer
    · rename_i same
      rw [same]
      exact answers call answer isAnswer
    · exact kept.answer other call answer isAnswer

theorem Receipts.no_run (kept : Receipts sha256 s) {caller : Nat}
    (none : ∀ run, ¬ (s.phase caller).fits run) : ∀ run ∈ s.runs, run.caller ≠ caller := by
  intro run mem same
  have fits := kept.fits run mem
  rw [same] at fits
  exact none run fits

theorem admit_duplicate {deliveries : Deliveries} {call : Call} {answer : Document}
    (admission : reserve sha256 deliveries call = .duplicate answer) :
    ∃ row text result, deliveries.lookup call.deliveryId = some row ∧
      row.digest = call.digest sha256 ∧ row.result = some text ∧
      Document.ofText text = some result ∧ answer = result.marked := by
  unfold reserve at admission
  split at admission
  · rename_i row found
    split at admission
    · cases admission
    · rename_i same
      split at admission
      · cases admission
      · rename_i text isText
        split at admission
        · rename_i result isResult
          cases admission
          exact ⟨row, text, result, found, not_not.mp same, isText, isResult, rfl⟩
        · cases admission
  · cases admission

theorem admit_fresh {deliveries deliveries' : Deliveries} {call : Call}
    (admission : reserve sha256 deliveries call = .fresh deliveries') :
    deliveries.lookup call.deliveryId = none ∧
      deliveries' = deliveries ++ [(call.deliveryId, { digest := call.digest sha256 })] := by
  unfold reserve at admission
  split at admission
  · split at admission
    · cases admission
    · split at admission
      · cases admission
      · split at admission
        · cases admission
        · cases admission
  · rename_i absent
    cases admission
    exact ⟨absent, rfl⟩

theorem Receipts.duplicate (kept : Receipts sha256 s) {caller : Nat} {call : Call}
    {answer : Document} (none : ∀ run ∈ s.runs, run.caller ≠ caller)
    (admission : reserve sha256 s.deliveries call = .duplicate answer) :
    Answered sha256 s caller call answer := by
  obtain ⟨row, text, result, found, digest, isText, isResult, rfl⟩ := admit_duplicate admission
  obtain ⟨run, mem, sameId, result', isRun, rfl⟩ := kept.result _ row text found isText
  rw [Document.ofText_text] at isResult
  cases isResult
  have rows := kept.rows call.deliveryId
  rw [found, Option.map_some, digest] at rows
  refine ⟨rows.symm, run, mem, sameId, result, isRun, ?_⟩
  rw [if_neg (none run mem)]

theorem Receipts.admitted (kept : Receipts sha256 s) {caller : Nat} {call : Call}
    (begun : s.phase caller = .begun call) (absent : s.deliveries.lookup call.deliveryId = none) :
    Receipts sha256 { s.go caller (.admitted call) with
      deliveries := s.deliveries ++ [(call.deliveryId, { digest := call.digest sha256 })]
      first := Function.update s.first call.deliveryId (some call.payload) } := by
  have unseen : s.first call.deliveryId = none := by
    have rows := kept.rows call.deliveryId
    rw [absent, Option.map_none] at rows
    exact Option.map_eq_none_iff.mp rows.symm
  have noRun := kept.no_run (by rw [begun]; exact fun _ fits => fits)
  have lookup : ∀ id, (s.deliveries ++
      [(call.deliveryId, ({ digest := call.digest sha256 } : Row))]).lookup id =
        if id = call.deliveryId then some { digest := call.digest sha256 }
        else s.deliveries.lookup id := by
    intro id
    by_cases same : id = call.deliveryId
    · rw [if_pos same, same, List.lookup_append, absent, List.lookup_cons_self]
      rfl
    · have other : (id == call.deliveryId) = false := beq_false_of_ne same
      rw [if_neg same, List.lookup_append, List.lookup_cons, other, List.lookup_nil, Option.or_none]
  have known : ∀ {id payload}, s.first id = some payload → id ≠ call.deliveryId := by
    intro id payload isFirst same
    rw [same, unseen] at isFirst
    cases isFirst
  have owned : ∀ other call', ((s.go caller (.admitted call)).phase other).owned = some call' →
      (other = caller ∧ call' = call) ∨ (other ≠ caller ∧ (s.phase other).owned = some call') := by
    intro other call' isOwned
    rw [phase_go] at isOwned
    split at isOwned
    · cases isOwned
      exact .inl ⟨by assumption, rfl⟩
    · exact .inr ⟨by assumption, isOwned⟩
  refine ⟨?_, ?_, ?_, kept.once, ?_, ?_, ?_, ?_, ?_, ?_⟩
  · intro id
    dsimp only
    rw [lookup, Function.update_apply]
    split
    · rfl
    · exact kept.rows id
  · intro other call' isOwned
    dsimp only
    rw [lookup, Function.update_apply]
    rcases owned other call' isOwned with ⟨-, rfl⟩ | ⟨-, isOwned⟩
    · rw [if_pos rfl, if_pos rfl]
      refine ⟨rfl, fun row isRow => ?_⟩
      cases isRow
      rfl
    · obtain ⟨isFirst, noResult⟩ := kept.owner other call' isOwned
      rw [if_neg (known isFirst), if_neg (known isFirst)]
      exact ⟨isFirst, noResult⟩
  · intro one call₁ two call₂ isOwned isOwned' same
    rcases owned one call₁ isOwned with ⟨rfl, rfl⟩ | ⟨-, owned₁⟩
    · rcases owned two call₂ isOwned' with ⟨rfl, -⟩ | ⟨-, owned₂⟩
      · rfl
      · exact absurd same.symm (known (kept.owner two call₂ owned₂).1)
    · rcases owned two call₂ isOwned' with ⟨rfl, rfl⟩ | ⟨-, owned₂⟩
      · exact absurd same (known (kept.owner one call₁ owned₁).1)
      · exact kept.alone one call₁ two call₂ owned₁ owned₂ same
  · intro other call' admitted run mem
    have notCall := known (kept.firstRun run mem)
    change (s.go caller (.admitted call)).phase other = .admitted call' at admitted
    rw [phase_go] at admitted
    split at admitted
    · cases admitted
      exact notCall
    · exact kept.unrun other call' admitted run mem
  · intro run mem
    change ((s.go caller (.admitted call)).phase run.caller).fits run
    rw [phase_go, if_neg (noRun run mem)]
    exact kept.fits run mem
  · intro other call' isOwned notAdmitted
    change (s.go caller (.admitted call)).phase other ≠ .admitted call' at notAdmitted
    rcases owned other call' isOwned with ⟨rfl, rfl⟩ | ⟨notCaller, isOwned⟩
    · rw [phase_go, if_pos rfl] at notAdmitted
      exact absurd rfl notAdmitted
    · rw [phase_go, if_neg notCaller] at notAdmitted
      exact kept.hasRun other call' isOwned notAdmitted
  · intro run mem
    dsimp only
    rw [Function.update_apply, if_neg (known (kept.firstRun run mem))]
    exact kept.firstRun run mem
  · intro id row text found isText
    dsimp only at found
    rw [lookup] at found
    split at found
    · cases found
      cases isText
    · exact kept.result id row text found isText
  · intro other call' answer isAnswer
    change (s.go caller (.admitted call)).phase other = _ ∨
      (s.go caller (.admitted call)).phase other = _ at isAnswer
    rw [phase_go] at isAnswer
    split at isAnswer
    · rcases isAnswer with isAnswer | isAnswer <;> cases isAnswer
    · obtain ⟨digest, run, mem, same, rest⟩ := kept.answer other call' answer isAnswer
      have notCall : call'.deliveryId ≠ call.deliveryId := same ▸ known (kept.firstRun run mem)
      refine ⟨?_, run, mem, same, rest⟩
      dsimp only
      rw [Function.update_apply, if_neg notCall]
      exact digest

theorem Receipts.enqueuing (kept : Receipts sha256 s) {caller : Nat} {call : Call}
    (admitted : s.phase caller = .admitted call) :
    Receipts sha256 { s.go caller (.enqueuing call) with
      runs := s.runs ++ [⟨caller, call, none⟩] } := by
  have isOwner : (s.phase caller).owned = some call := by
    rw [admitted]
    rfl
  have noRun := kept.no_run (by rw [admitted]; exact fun _ fits => fits)
  have owned : ∀ other call', ((s.go caller (.enqueuing call)).phase other).owned = some call' →
      (s.phase other).owned = some call' := by
    intro other call' isOwned
    rw [phase_go] at isOwned
    split at isOwned
    · rename_i same
      cases isOwned
      rw [same]
      exact isOwner
    · exact isOwned
  refine ⟨kept.rows, ?_, ?_, ?_, ?_, ?_, ?_, ?_, ?_, ?_⟩
  · intro other call' isOwned
    exact kept.owner other call' (owned other call' isOwned)
  · intro one call₁ two call₂ isOwned isOwned'
    exact kept.alone one call₁ two call₂ (owned one call₁ isOwned) (owned two call₂ isOwned')
  · rw [List.map_append, List.nodup_append]
    refine ⟨kept.once, List.nodup_singleton _, ?_⟩
    rintro _ mem _ isNew rfl
    obtain ⟨run, inRuns, same⟩ := List.mem_map.mp mem
    exact kept.unrun caller call admitted run inRuns (same.trans (List.mem_singleton.mp isNew))
  · intro other call' isAdmitted run mem
    change (s.go caller (.enqueuing call)).phase other = .admitted call' at isAdmitted
    rw [phase_go] at isAdmitted
    split at isAdmitted
    · cases isAdmitted
    · rename_i notCaller
      rcases List.mem_append.mp mem with old | new
      · exact kept.unrun other call' isAdmitted run old
      · cases List.mem_singleton.mp new
        have otherOwner : (s.phase other).owned = some call' := by
          rw [isAdmitted]
          rfl
        exact fun same => notCaller (kept.alone caller call other call' isOwner otherOwner same).symm
  · intro run mem
    change ((s.go caller (.enqueuing call)).phase run.caller).fits run
    rw [phase_go]
    rcases List.mem_append.mp mem with old | new
    · rw [if_neg (noRun run old)]
      exact kept.fits run old
    · cases List.mem_singleton.mp new
      rw [if_pos rfl]
      exact ⟨rfl, rfl⟩
  · intro other call' isOwned notAdmitted
    change (s.go caller (.enqueuing call)).phase other ≠ .admitted call' at notAdmitted
    rw [phase_go] at notAdmitted
    by_cases same : other = caller
    · exact ⟨_, List.mem_append_right _ (List.mem_singleton_self _), same.symm⟩
    · rw [if_neg same] at notAdmitted
      obtain ⟨run, mem, isCaller⟩ := kept.hasRun other call' (owned other call' isOwned) notAdmitted
      exact ⟨run, List.mem_append_left _ mem, isCaller⟩
  · intro run mem
    rcases List.mem_append.mp mem with old | new
    · exact kept.firstRun run old
    · cases List.mem_singleton.mp new
      exact (kept.owner caller call isOwner).1
  · intro id row text found isText
    obtain ⟨run, mem, rest⟩ := kept.result id row text found isText
    exact ⟨run, List.mem_append_left _ mem, rest⟩
  · intro other call' answer isAnswer
    change (s.go caller (.enqueuing call)).phase other = _ ∨
      (s.go caller (.enqueuing call)).phase other = _ at isAnswer
    rw [phase_go] at isAnswer
    split at isAnswer
    · rcases isAnswer with isAnswer | isAnswer <;> cases isAnswer
    · obtain ⟨digest, run, mem, rest⟩ := kept.answer other call' answer isAnswer
      exact ⟨digest, run, List.mem_append_left _ mem, rest⟩

theorem noteResult_call (caller : Nat) (result : Document) (run : EnqueueRun) :
    (noteResult caller result run).call = run.call := by
  unfold noteResult
  split <;> rfl

theorem noteResult_caller (caller : Nat) (result : Document) (run : EnqueueRun) :
    (noteResult caller result run).caller = run.caller := by
  unfold noteResult
  split <;> rfl

theorem Receipts.enqueued (kept : Receipts sha256 s) {caller : Nat} {call : Call}
    (enqueuing : s.phase caller = .enqueuing call) (result : Document) :
    Receipts sha256 { s.go caller (.enqueued call result) with
      runs := s.runs.map (noteResult caller result) } := by
  have isOwner : (s.phase caller).owned = some call := by
    rw [enqueuing]
    rfl
  have owned : ∀ other call',
      ((s.go caller (.enqueued call result)).phase other).owned = some call' →
        (s.phase other).owned = some call' := by
    intro other call' isOwned
    rw [phase_go] at isOwned
    split at isOwned
    · rename_i same
      cases isOwned
      rw [same]
      exact isOwner
    · exact isOwned
  -- a run that has its result is not the one of the caller
  have finished : ∀ run ∈ s.runs, ∀ r, run.result = some r →
      noteResult caller result run = run := by
    intro run mem r isResult
    have fits := kept.fits run mem
    refine if_neg fun same => ?_
    rw [same, enqueuing] at fits
    rw [fits.2] at isResult
    cases isResult
  refine ⟨kept.rows, ?_, ?_, ?_, ?_, ?_, ?_, ?_, ?_, ?_⟩
  · intro other call' isOwned
    exact kept.owner other call' (owned other call' isOwned)
  · intro one call₁ two call₂ isOwned isOwned'
    exact kept.alone one call₁ two call₂ (owned one call₁ isOwned) (owned two call₂ isOwned')
  · have same : (s.runs.map (noteResult caller result)).map (fun run => run.call.deliveryId) =
        s.runs.map fun run => run.call.deliveryId := by
      rw [List.map_map]
      exact List.map_congr_left fun run _ => congrArg Call.deliveryId (noteResult_call _ _ run)
    rw [same]
    exact kept.once
  · intro other call' isAdmitted run mem
    change (s.go caller (.enqueued call result)).phase other = .admitted call' at isAdmitted
    obtain ⟨run, inRuns, rfl⟩ := List.mem_map.mp mem
    rw [phase_go] at isAdmitted
    rw [noteResult_call]
    split at isAdmitted
    · cases isAdmitted
    · exact kept.unrun other call' isAdmitted run inRuns
  · intro run mem
    obtain ⟨run, inRuns, rfl⟩ := List.mem_map.mp mem
    have fits := kept.fits run inRuns
    change ((s.go caller (.enqueued call result)).phase (noteResult caller result run).caller).fits _
    rw [noteResult_caller, phase_go]
    unfold noteResult
    by_cases same : run.caller = caller
    · rw [same, enqueuing] at fits
      rw [if_pos same, if_pos same]
      exact ⟨fits.1, rfl⟩
    · rw [if_neg same, if_neg same]
      exact fits
  · intro other call' isOwned notAdmitted
    change (s.go caller (.enqueued call result)).phase other ≠ .admitted call' at notAdmitted
    have before : s.phase other ≠ .admitted call' := by
      rw [phase_go] at notAdmitted
      split at notAdmitted
      · rename_i same
        rw [same, enqueuing]
        exact nofun
      · exact notAdmitted
    obtain ⟨run, mem, isCaller⟩ := kept.hasRun other call' (owned other call' isOwned) before
    exact ⟨_, List.mem_map_of_mem mem, (noteResult_caller _ _ run).trans isCaller⟩
  · intro run mem
    obtain ⟨run, inRuns, rfl⟩ := List.mem_map.mp mem
    rw [noteResult_call]
    exact kept.firstRun run inRuns
  · intro id row text found isText
    obtain ⟨run, mem, same, r, isResult, isText⟩ := kept.result id row text found isText
    exact ⟨run, List.mem_map.mpr ⟨run, mem, finished run mem r isResult⟩, same, r, isResult, isText⟩
  · intro other call' answer isAnswer
    change (s.go caller (.enqueued call result)).phase other = _ ∨
      (s.go caller (.enqueued call result)).phase other = _ at isAnswer
    rw [phase_go] at isAnswer
    split at isAnswer
    · rcases isAnswer with isAnswer | isAnswer <;> cases isAnswer
    · obtain ⟨digest, run, mem, same, r, isResult, rest⟩ := kept.answer other call' answer isAnswer
      exact ⟨digest, run, List.mem_map.mpr ⟨run, mem, finished run mem r isResult⟩, same, r,
        isResult, rest⟩

theorem Receipts.recorded (kept : Receipts sha256 s) {caller : Nat} {call : Call}
    {result : Document} (enqueued : s.phase caller = .enqueued call result) :
    Receipts sha256 { s.go caller (.recorded call result) with
      deliveries := record s.deliveries call.deliveryId result } := by
  have isOwner : (s.phase caller).owned = some call := by
    rw [enqueued]
    rfl
  obtain ⟨isFirst, -⟩ := kept.owner caller call isOwner
  obtain ⟨run, mem, isCaller⟩ := kept.hasRun caller call isOwner (by rw [enqueued]; exact nofun)
  have fits := kept.fits run mem
  rw [isCaller, enqueued] at fits
  obtain ⟨sameCall, isResult⟩ := fits
  have answered : Answered sha256 s caller call result := by
    refine ⟨by rw [isFirst]; rfl, run, mem, by rw [sameCall], result, isResult, ?_⟩
    rw [if_pos isCaller]
  have freed : Receipts sha256 (s.go caller (.recorded call result)) := by
    refine kept.go rfl ?_ ?_
    · intro run mem same
      have fits := kept.fits run mem
      rwa [same, enqueued] at fits
    · rintro call' answer (isPhase | isPhase)
      · cases isPhase
        exact answered
      · cases isPhase
  have notOwned : ∀ other call', ((s.go caller (.recorded call result)).phase other).owned =
      some call' → call'.deliveryId ≠ call.deliveryId := by
    intro other call' isOwned same
    rw [phase_go] at isOwned
    split at isOwned
    · cases isOwned
    · rename_i notCaller
      exact notCaller (kept.alone other call' caller call isOwned isOwner same)
  refine ⟨?_, ?_, freed.alone, kept.once, freed.unrun, freed.fits, freed.hasRun, kept.firstRun, ?_,
    freed.answer⟩
  · intro id
    have rows := kept.rows id
    rw [lookup_record]
    split
    · rw [Option.map_map]
      exact rows
    · exact rows
  · intro other call' isOwned
    rw [lookup_record, if_neg (notOwned other call' isOwned)]
    exact freed.owner other call' isOwned
  · intro id row text found isText
    rw [lookup_record] at found
    split at found
    · rename_i same
      obtain ⟨old, -, rfl⟩ := Option.map_eq_some_iff.mp found
      cases isText
      exact ⟨run, mem, by rw [sameCall, same], result, isResult, rfl⟩
    · exact kept.result id row text found isText

/-- One action keeps the rows, the owners and the runs of the deliveries in line. -/
theorem Receipts.step (kept : Receipts sha256 s) {action : Action}
    (stepped : step sha256 s action = some t) : Receipts sha256 t := by
  cases action with
  | begin caller call =>
    unfold Peers.step at stepped
    dsimp only at stepped
    split at stepped
    · rename_i idle
      cases stepped
      have none := kept.no_run (by rw [idle]; exact fun _ fits => fits)
      refine kept.go rfl (fun run mem same => absurd same (none run mem)) ?_
      rintro call answer (isPhase | isPhase) <;> cases isPhase
    · cases stepped
  | reserve caller =>
    unfold Peers.step at stepped
    dsimp only at stepped
    split at stepped
    · rename_i call begun
      have none := kept.no_run (by rw [begun]; exact fun _ fits => fits)
      split at stepped
      · cases stepped
        refine kept.go rfl (fun run mem same => absurd same (none run mem)) ?_
        rintro call answer (isPhase | isPhase) <;> cases isPhase
      · rename_i answer admission
        cases stepped
        refine kept.go rfl (fun run mem same => absurd same (none run mem)) ?_
        rintro call' answer' (isPhase | isPhase)
        · cases isPhase
        · cases isPhase
          exact kept.duplicate none admission
      · rename_i deliveries admission
        obtain ⟨absent, rfl⟩ := admit_fresh admission
        cases stepped
        exact kept.admitted begun absent
    · cases stepped
  | enqueue caller =>
    unfold Peers.step at stepped
    dsimp only at stepped
    split at stepped
    · rename_i call admitted
      cases stepped
      exact kept.enqueuing admitted
    · cases stepped
  | finish caller result =>
    unfold Peers.step at stepped
    dsimp only at stepped
    split at stepped
    · rename_i call enqueuing
      cases stepped
      exact kept.enqueued enqueuing result
    · cases stepped
  | record caller =>
    unfold Peers.step at stepped
    dsimp only at stepped
    split at stepped
    · rename_i call result enqueued
      cases stepped
      exact kept.recorded enqueued
    · cases stepped
  | answer caller =>
    unfold Peers.step at stepped
    dsimp only at stepped
    split at stepped
    · rename_i call result recorded
      cases stepped
      refine kept.go rfl ?_ ?_
      · intro run mem same
        have fits := kept.fits run mem
        rw [same, recorded] at fits
        exact fits
      · rintro call' answer (isPhase | isPhase)
        · cases isPhase
        · cases isPhase
          exact kept.answer caller call result (.inl recorded)
    · cases stepped
  | fail caller =>
    have fails : ∀ call, t = s.go caller (.raised call) →
        (∀ run, (s.phase caller).fits run → run.call = call) → Receipts sha256 t := by
      rintro call rfl fits
      refine kept.go rfl ?_ ?_
      · intro run mem same
        have here := kept.fits run mem
        rw [same] at here
        exact fits run here
      · rintro call' answer (isPhase | isPhase) <;> cases isPhase
    unfold Peers.step at stepped
    dsimp only at stepped
    split at stepped
    case h_6 => cases stepped
    all_goals
      rename_i call isPhase
      cases stepped
      refine fails _ rfl fun run here => ?_
      rw [isPhase] at here
    · exact here.elim
    · exact here.elim
    · exact here.1
    · exact here.1
    · exact here.1

end

/-- They are in line in every state reached. -/
theorem receipts_of_run {actions : List Action}
    (ran : run (step sha256) .empty actions = some s) : Receipts sha256 s :=
  run_invariant (fun _ _ _ kept stepped => kept.step stepped) receipts_empty ran

/-! ### A delivery that no call owns -/

/-- The runs of a delivery. -/
def State.runsOf (s : State) (id : String) : List EnqueueRun :=
  s.runs.filter fun run => run.call.deliveryId = id

/-- The delivery is recorded and no call may still run it: it is over, or its outcome is unknown. -/
structure Settled (s : State) (id : String) : Prop where
  recorded : (s.deliveries.lookup id).isSome
  unowned : ∀ caller call, (s.phase caller).owned = some call → call.deliveryId ≠ id

theorem Settled.go {id : String} (settled : Settled s id) {caller : Nat} {phase : Phase}
    (owned : ∀ call, phase.owned = some call → call.deliveryId ≠ id) :
    Settled (s.go caller phase) id := by
  refine ⟨settled.recorded, fun other call isOwned => ?_⟩
  rw [phase_go] at isOwned
  split at isOwned
  · exact owned call isOwned
  · exact settled.unowned other call isOwned

/-- A settled delivery stays settled and starts no further run. -/
theorem Settled.step {id : String} (settled : Settled s id) (kept : Receipts sha256 s)
    {action : Action} (stepped : Peers.step sha256 s action = some t) :
    Settled t id ∧ t.runsOf id = s.runsOf id := by
  have owner : ∀ {caller call}, (s.phase caller).owned = some call → call.deliveryId ≠ id :=
    fun isOwned => settled.unowned _ _ isOwned
  cases action with
  | begin | answer =>
    unfold Peers.step at stepped
    dsimp only at stepped
    split at stepped
    · cases stepped
      exact ⟨settled.go nofun, rfl⟩
    · cases stepped
  | reserve caller =>
    unfold Peers.step at stepped
    dsimp only at stepped
    split at stepped
    · rename_i call begun
      split at stepped
      · cases stepped
        exact ⟨settled.go nofun, rfl⟩
      · cases stepped
        exact ⟨settled.go nofun, rfl⟩
      · rename_i deliveries admission
        obtain ⟨absent, rfl⟩ := admit_fresh admission
        cases stepped
        have other : call.deliveryId ≠ id := by
          rintro rfl
          have recorded := settled.recorded
          rw [absent] at recorded
          cases recorded
        have moved : Settled (s.go caller (.admitted call)) id :=
          settled.go fun call' isOwned => by
            cases isOwned
            exact other
        refine ⟨⟨?_, moved.unowned⟩, rfl⟩
        dsimp only
        rw [List.lookup_append, Option.isSome_or, settled.recorded]
        rfl
    · cases stepped
  | enqueue caller =>
    unfold Peers.step at stepped
    dsimp only at stepped
    split at stepped
    · rename_i call admitted
      cases stepped
      have other : call.deliveryId ≠ id := owner (by rw [admitted]; rfl)
      have moved : Settled (s.go caller (.enqueuing call)) id :=
        settled.go fun call' isOwned => by
          cases isOwned
          exact other
      refine ⟨⟨moved.recorded, moved.unowned⟩, ?_⟩
      unfold State.runsOf
      rw [List.filter_append, List.filter_cons_of_neg (by simpa using other), List.filter_nil,
        List.append_nil]
    · cases stepped
  | finish caller result =>
    unfold Peers.step at stepped
    dsimp only at stepped
    split at stepped
    · rename_i call enqueuing
      cases stepped
      have other : call.deliveryId ≠ id := owner (by rw [enqueuing]; rfl)
      have moved : Settled (s.go caller (.enqueued call result)) id :=
        settled.go fun call' isOwned => by
          cases isOwned
          exact other
      refine ⟨⟨moved.recorded, moved.unowned⟩, ?_⟩
      unfold State.runsOf
      rw [List.filter_map]
      have sameRuns : s.runs.filter ((fun run => decide (run.call.deliveryId = id)) ∘
          noteResult caller result) = s.runs.filter fun run => run.call.deliveryId = id :=
        List.filter_congr fun run _ => by rw [Function.comp_apply, noteResult_call]
      rw [sameRuns]
      refine (List.map_congr_left fun run mem => ?_).trans (List.map_id _)
      obtain ⟨inRuns, isId⟩ := List.mem_filter.mp mem
      have fits := kept.fits run inRuns
      refine if_neg fun same => other ?_
      rw [same, enqueuing] at fits
      rw [← fits.1]
      exact of_decide_eq_true isId
    · cases stepped
  | record caller =>
    unfold Peers.step at stepped
    dsimp only at stepped
    split at stepped
    · rename_i call result enqueued
      cases stepped
      have moved : Settled (s.go caller (.recorded call result)) id := settled.go nofun
      refine ⟨⟨?_, moved.unowned⟩, rfl⟩
      dsimp only
      rw [lookup_record]
      split
      · rw [Option.isSome_map]
        exact settled.recorded
      · exact settled.recorded
    · cases stepped
  | fail caller =>
    unfold Peers.step at stepped
    dsimp only at stepped
    split at stepped
    case h_6 => cases stepped
    all_goals
      cases stepped
      exact ⟨settled.go nofun, rfl⟩

theorem Settled.runs_eq {id : String} (settled : Settled s id) (kept : Receipts sha256 s)
    {later : List Action} (ran : run (Peers.step sha256) s later = some t) :
    t.runsOf id = s.runsOf id := by
  induction later generalizing s with
  | nil =>
    cases ran
    rfl
  | cons action later ih =>
    obtain ⟨m, first, rest⟩ := run_cons_eq_some.mp ran
    obtain ⟨stays, same⟩ := settled.step kept first
    exact (ih stays (kept.step first) rest).trans same

/-! ### Receipts -/

/-- After any run of calls, whichever of them overlap or die: a delivery is run at most once; what a
call returns is the result of that run, marked when another call ran it; no call succeeds or runs
with a payload that differs from the recorded one; and a recorded delivery that no call owns any
more, so in particular one whose outcome is unknown, is never run again. -/
theorem accept_once (injective : Function.Injective sha256) {actions : List Action}
    (ran : run (step sha256) .empty actions = some s) :
    (∀ id, (s.runsOf id).length ≤ 1) ∧
    (∀ caller call answer, s.phase caller = .returned call answer →
      ∃ run ∈ s.runsOf call.deliveryId, ∃ result, run.result = some result ∧
        answer = if run.caller = caller then result else result.marked) ∧
    (∀ id payload, s.first id = some payload →
      (∀ caller call answer, call.deliveryId = id → s.phase caller = .returned call answer →
        call.payload.value = payload.value) ∧
      ∀ run ∈ s.runsOf id, run.call.payload.value = payload.value) ∧
    ∀ id, Settled s id → ∀ later t, run (step sha256) s later = some t →
      t.runsOf id = s.runsOf id := by
  have kept := receipts_of_run ran
  refine ⟨fun id => ?_, fun caller call answer returned => ?_, fun id payload isFirst => ⟨?_, ?_⟩,
    fun id settled later t ran => settled.runs_eq kept ran⟩
  · have nodup := kept.once
    have counted := List.nodup_iff_count_le_one.mp nodup id
    rw [List.count_eq_countP, List.countP_map, List.countP_eq_length_filter] at counted
    have same : s.runsOf id =
        s.runs.filter ((fun x => x == id) ∘ fun run => run.call.deliveryId) :=
      List.filter_congr fun run _ => rfl
    rw [same]
    exact counted
  · obtain ⟨-, run, mem, same, result, isResult, isAnswer⟩ := kept.answer caller call answer
      (.inr returned)
    exact ⟨run, List.mem_filter.mpr ⟨mem, decide_eq_true same⟩, result, isResult, isAnswer⟩
  · rintro caller call answer rfl returned
    obtain ⟨digest, -⟩ := kept.answer caller call answer (.inr returned)
    rw [isFirst, Option.map_some] at digest
    exact (canonical_injective (injective (Option.some.inj digest))).symm
  · intro run mem
    obtain ⟨inRuns, isId⟩ := List.mem_filter.mp mem
    have first := kept.firstRun run inRuns
    rw [of_decide_eq_true isId, isFirst] at first
    cases first
    rfl

/-- The payload `{"text": "hi"}`. -/
def greeting : Document := ⟨[("text", .str "hi")], by decide⟩

/-- The result `{"ok": true}`. -/
def accepted : Document := ⟨[("ok", .bool true)], by decide⟩

/-- A delivery and a later one with the same content. -/
def retried : List Action :=
  [.begin 0 ⟨"m", greeting⟩, .reserve 0, .enqueue 0, .finish 0 accepted, .record 0, .answer 0,
    .begin 1 ⟨"m", greeting⟩, .reserve 1]

/-- The delivery runs once. -/
theorem accept_once_retried :
    ∃ s, run (step id) .empty retried = some s ∧ s.runs.length = 1 ∧
      ∀ m, (s.runsOf m).length ≤ 1 := by
  have runs : (run (step id) .empty retried).map (fun s => s.runs.length) = some 1 := by
    decide +kernel
  obtain ⟨s, ran, one⟩ := Option.map_eq_some_iff.mp runs
  exact ⟨s, ran, one, (accept_once Function.injective_id ran).1⟩

end AgentPark.Peers
