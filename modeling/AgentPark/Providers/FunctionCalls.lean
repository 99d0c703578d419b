import AgentPark.Providers.ResponsesStream
import Mathlib.Data.Set.Function

/-!
# Function calls of a Responses stream

The events of several function calls arrive interleaved.  An event names its call by the identifier of
the item, by the identifier of the call, or by both; the normalizer files what it learns under the
identifier it saw first.
-/

namespace AgentPark.Providers

open Lib

/-- A function call of a response. -/
structure Call where
  id : String
  callId : String
  name : String
deriving DecidableEq

/-- What an event says about a call. -/
inductive CallEvent where
  | added (name : String) (arguments : Option String) (status : String)
  | delta (text : String)
  | argumentsDone (arguments : String)
  | done (name : String) (arguments : Option String) (status : String)
deriving DecidableEq

/-- The identifiers of an event, empty when they are missing, and what it says. -/
structure Entry where
  itemId : String
  callId : String
  event : CallEvent
deriving DecidableEq

/-- What the normalizer reads of an item. -/
def readItem (host : Builtins) (event item : Json)
    (content : String → Option String → String → CallEvent) : Option Entry :=
  if itemType host item = "function_call" then
    (Normalizer.itemArguments item).map fun arguments =>
      { itemId := Normalizer.itemIdOf host event item
        callId := fieldText host item "call_id"
        event := content (fieldText host item "name") arguments (fieldText host item "status") }
  else none

/-- What the normalizer reads of an event about a function call. -/
def readEntry (host : Builtins) (event : Json) : Option Entry :=
  match event with
  | .obj fields =>
    let event := Json.obj fields
    match kindOf host event with
    | .functionCallArgumentsDelta => (textField event "delta").map fun text =>
      ⟨fieldText host event "item_id", fieldText host event "call_id", .delta text⟩
    | .functionCallArgumentsDone => (textField event "arguments").map fun arguments =>
      ⟨fieldText host event "item_id", fieldText host event "call_id", .argumentsDone arguments⟩
    | .outputItemAdded => (dictField event "item").bind fun item =>
      readItem host event item .added
    | .outputItemDone => (dictField event "item").bind fun item => readItem host event item .done
    | _ => none
  | _ => none

/-- What an event writes to the bucket. -/
def Entry.change (entry : Entry) : Bucket → Bucket :=
  match entry.event with
  | .added name arguments status | .done name arguments status =>
    Normalizer.mergeItem entry.itemId entry.callId name arguments status
  | .delta text => fun bucket =>
    { Normalizer.identify entry.itemId entry.callId bucket with
      arguments := bucket.arguments ++ text
      argumentsSeen := true }
  | .argumentsDone arguments => fun bucket =>
    { Normalizer.identify entry.itemId entry.callId bucket with
      arguments := arguments
      argumentsSeen := true }

/-! ### What is known about one call -/

/-- How an event names its call. -/
inductive Naming where
  | item
  | call
  | both
deriving DecidableEq

/-- How two identifiers name a call.  When the call has one identifier for both, each of them names it
both ways. -/
def Call.naming (call : Call) (entry : Entry) : Option Naming :=
  if entry.itemId = call.id ∧ entry.callId = call.callId then some .both
  else if entry.itemId = call.id ∧ entry.callId = "" then
    some (if call.id = call.callId then .both else .item)
  else if entry.itemId = "" ∧ entry.callId = call.callId then
    some (if call.id = call.callId then .both else .call)
  else none

/-- What is known about a call: nothing, one bucket under the identifiers that named it, or two
buckets. -/
inductive CallState where
  | unseen
  | named (naming : Naming) (bucket : Bucket)
  | split (itemBucket callBucket : Bucket)
deriving DecidableEq

/-- The state behind an event, and the bucket the event was written to. -/
def CallState.next : CallState → Naming → (Bucket → Bucket) → CallState × Bucket
  | .unseen, naming, change => (.named naming (change {}), change {})
  | .named .both bucket, _, change => (.named .both (change bucket), change bucket)
  | .named .item bucket, .item, change => (.named .item (change bucket), change bucket)
  | .named .call bucket, .call, change => (.named .call (change bucket), change bucket)
  | .named .item bucket, .both, change => (.named .both (change bucket), change bucket)
  | .named .call bucket, .both, change => (.named .both (change bucket), change bucket)
  | .named .item bucket, .call, change => (.split bucket (change {}), change {})
  | .named .call bucket, .item, change => (.split (change {}) bucket, change {})
  | .split itemBucket callBucket, .item, change =>
    (.split (change itemBucket) callBucket, change itemBucket)
  | .split itemBucket callBucket, .call, change =>
    (.split itemBucket (change callBucket), change callBucket)
  -- the call identifier is linked to the first bucket from here on
  | .split itemBucket _, .both, change => (.named .both (change itemBucket), change itemBucket)

/-- The tables hold what is known about a call. -/
def Known (n : Normalizer) (call : Call) : CallState → Prop
  | .unseen => n.functionCallKeysById.lookup call.id = none ∧
      n.functionCallKeysById.lookup call.callId = none ∧
      n.functionCallBuckets.lookup call.id = none ∧ n.functionCallBuckets.lookup call.callId = none
  | .named .item bucket => call.id ≠ call.callId ∧
      n.functionCallKeysById.lookup call.id = some call.id ∧
      n.functionCallKeysById.lookup call.callId = none ∧
      n.functionCallBuckets.lookup call.id = some bucket ∧
      n.functionCallBuckets.lookup call.callId = none
  | .named .call bucket => call.id ≠ call.callId ∧
      n.functionCallKeysById.lookup call.id = none ∧
      n.functionCallKeysById.lookup call.callId = some call.callId ∧
      n.functionCallBuckets.lookup call.id = none ∧
      n.functionCallBuckets.lookup call.callId = some bucket
  | .named .both bucket => ∃ key, (key = call.id ∨ key = call.callId) ∧
      n.functionCallKeysById.lookup call.id = some key ∧
      n.functionCallKeysById.lookup call.callId = some key ∧
      n.functionCallBuckets.lookup key = some bucket
  | .split itemBucket callBucket => call.id ≠ call.callId ∧
      n.functionCallKeysById.lookup call.id = some call.id ∧
      n.functionCallKeysById.lookup call.callId = some call.callId ∧
      n.functionCallBuckets.lookup call.id = some itemBucket ∧
      n.functionCallBuckets.lookup call.callId = some callBucket

section

variable {n : Normalizer} {itemId callId : String} {change : Bucket → Bucket}

theorem lookup_linkId (keys : List (String × String)) (id key other : String) :
    (Normalizer.linkId keys id key).lookup other =
      if other = id ∧ id ≠ "" then some key else keys.lookup other := by
  rw [Normalizer.linkId]
  by_cases empty : id = ""
  · rw [if_pos empty, if_neg (fun both => both.2 empty)]
  · rw [if_neg empty, lookup_dictSet]
    by_cases same : other = id
    · rw [if_pos same, if_pos ⟨same, empty⟩]
    · rw [if_neg same, if_neg (fun both => same both.1)]

theorem lookup_keys_updateBucket (other : String) :
    (n.updateBucket itemId callId change).functionCallKeysById.lookup other =
      if other ≠ "" ∧ (other = itemId ∨ other = callId) then some (n.bucketKey itemId callId)
      else n.functionCallKeysById.lookup other := by
  have links : (n.updateBucket itemId callId change).functionCallKeysById.lookup other =
      (Normalizer.linkId (Normalizer.linkId n.functionCallKeysById itemId
        (n.bucketKey itemId callId)) callId (n.bucketKey itemId callId)).lookup other := rfl
  rw [links, lookup_linkId, lookup_linkId]
  grind

theorem lookup_buckets_updateBucket (other : String) :
    (n.updateBucket itemId callId change).functionCallBuckets.lookup other =
      if other = n.bucketKey itemId callId then
        some (change (n.bucketAt (n.bucketKey itemId callId)))
      else n.functionCallBuckets.lookup other := by
  have buckets : (n.updateBucket itemId callId change).functionCallBuckets =
      dictSet n.functionCallBuckets (n.bucketKey itemId callId)
        (change (n.bucketAt (n.bucketKey itemId callId))) := rfl
  rw [buckets, lookup_dictSet]

/-- The identifiers of the call are there, and no key is filed under the empty one. -/
structure Filed (n : Normalizer) (call : Call) : Prop where
  id : call.id ≠ ""
  callId : call.callId ≠ ""
  empty : n.functionCallKeysById.lookup "" = none

theorem Known.own {call : Call} {state : CallState} {entry : Entry} {naming : Naming}
    (filed : Filed n call) (known : Known n call state) (names : call.naming entry = some naming)
    (change : Bucket → Bucket) :
    Known (n.updateBucket entry.itemId entry.callId change) call (state.next naming change).1 ∧
    (n.bucketKey entry.itemId entry.callId = call.id ∨
      n.bucketKey entry.itemId entry.callId = call.callId) ∧
    change (n.bucketAt (n.bucketKey entry.itemId entry.callId)) = (state.next naming change).2 := by
  obtain ⟨id, callId, empty⟩ := filed
  have key : n.bucketKey entry.itemId entry.callId =
      Normalizer.firstText [(n.functionCallKeysById.lookup entry.itemId).getD "",
        (n.functionCallKeysById.lookup entry.callId).getD "", entry.itemId, entry.callId] := rfl
  simp only [Normalizer.firstText] at key
  simp only [Call.naming] at names
  simp only [lookup_keys_updateBucket, lookup_buckets_updateBucket, Normalizer.bucketAt, Known]
  -- the key is that of the identifier that is linked, else the first identifier of the event
  cases state with
  | unseen =>
    simp only [Known, CallState.next] at known ⊢
    cases naming <;> grind
  | named linked bucket =>
    cases linked <;> cases naming <;> simp only [Known, CallState.next] at known ⊢ <;> grind
  | split itemBucket callBucket =>
    cases naming <;> simp only [Known, CallState.next] at known ⊢ <;> grind

/-- An event of another call changes nothing. -/
theorem Known.other {other : Call} {state : CallState} (known : Known n other state)
    (item : itemId ≠ other.id ∧ itemId ≠ other.callId) (call : callId ≠ other.id ∧ callId ≠ other.callId)
    (key : n.bucketKey itemId callId ≠ other.id ∧ n.bucketKey itemId callId ≠ other.callId) :
    Known (n.updateBucket itemId callId change) other state := by
  have keysOf : ∀ id, id = other.id ∨ id = other.callId →
      (n.updateBucket itemId callId change).functionCallKeysById.lookup id =
        n.functionCallKeysById.lookup id := by
    intro id own
    rw [lookup_keys_updateBucket, if_neg]
    grind
  have bucketsOf : ∀ id, id = other.id ∨ id = other.callId →
      (n.updateBucket itemId callId change).functionCallBuckets.lookup id =
        n.functionCallBuckets.lookup id := by
    intro id own
    rw [lookup_buckets_updateBucket, if_neg]
    grind
  cases state with
  | unseen | split =>
    simp only [Known, keysOf, bucketsOf, true_or, or_true] at known ⊢
    exact known
  | named linked bucket =>
    cases linked with
    | item | call =>
      simp only [Known, keysOf, bucketsOf, true_or, or_true] at known ⊢
      exact known
    | both =>
      obtain ⟨filedAt, own, keys⟩ := known
      refine ⟨filedAt, own, ?_⟩
      rw [keysOf _ (.inl rfl), keysOf _ (.inr rfl), bucketsOf _ own]
      exact keys

end

/-! ### What an event of a call does -/

section

variable (host : Builtins)

/-- The item a bucket stands for. -/
def Bucket.item (bucket : Bucket) : FunctionCallItem :=
  { id := bucket.id, callId := bucket.callId, name := bucket.name, arguments := bucket.arguments,
    status := bucket.status }

/-- What the normalizer gives for an event, with the bucket it was written to. -/
def given (n : Normalizer) (event : Json) (entry : Entry) (bucket : Bucket) : List StreamEvent :=
  match entry.event with
  | .delta text => [.functionCallArgumentsDelta (Normalizer.firstText [bucket.id, entry.itemId])
      (Normalizer.firstText [bucket.callId, entry.callId]) text bucket.arguments]
  | .argumentsDone _ => []
  | .added .. => [.outputItemAdded entry.itemId (intOrNone host (event.get "output_index"))
      "function_call" ((dictField event "item").getD .null) (some bucket.item)]
  | .done .. =>
    if Normalizer.missingParts bucket = [] then
      [.outputItemDone bucket.id (intOrNone host (event.get "output_index")) "function_call"
        bucket.item.toResponseItem (some bucket.item)]
    else
      [n.failure ("Responses function_call output_item.done is missing " ++
        ", ".intercalate (Normalizer.missingParts bucket)) "incomplete_function_call"
        (Json.strOr host.repr "" (event.get "type")) 0 []]

variable {host} {n : Normalizer}

theorem bucketAt_updateBucket (itemId callId : String) (change : Bucket → Bucket) :
    (n.updateBucket itemId callId change).bucketAt (n.bucketKey itemId callId) =
      change (n.bucketAt (n.bucketKey itemId callId)) := by
  rw [Normalizer.bucketAt, lookup_buckets_updateBucket, if_pos rfl]
  rfl

theorem bucketKey_ne (n : Normalizer) {itemId callId : String} (named : itemId ≠ "" ∨ callId ≠ "") :
    n.bucketKey itemId callId ≠ "" := by
  have key : n.bucketKey itemId callId =
      Normalizer.firstText [(n.functionCallKeysById.lookup itemId).getD "",
        (n.functionCallKeysById.lookup callId).getD "", itemId, callId] := rfl
  rw [key]
  simp only [Normalizer.firstText]
  grind

theorem functionCallSnapshot_updateBucket {itemId callId : String} {change : Bucket → Bucket}
    (empty : n.functionCallKeysById.lookup "" = none) (named : itemId ≠ "" ∨ callId ≠ "") :
    (n.updateBucket itemId callId change).functionCallSnapshot itemId callId =
      some (change (n.bucketAt (n.bucketKey itemId callId))).item := by
  have keyNe := bucketKey_ne n named
  have key : Normalizer.firstText
      [((n.updateBucket itemId callId change).functionCallKeysById.lookup itemId).getD "",
        ((n.updateBucket itemId callId change).functionCallKeysById.lookup callId).getD ""] =
      n.bucketKey itemId callId := by
    rw [lookup_keys_updateBucket, lookup_keys_updateBucket]
    simp only [Normalizer.firstText]
    grind
  rw [Normalizer.functionCallSnapshot, key]
  rw [if_neg keyNe, lookup_buckets_updateBucket, if_pos rfl]
  rfl

/-- The event is one about a function call, with what is read of it. -/
inductive Reads (host : Builtins) (event : Json) : Entry → Prop
  | delta {text : String} (kind : kindOf host event = .functionCallArgumentsDelta)
      (delta : textField event "delta" = some text) :
      Reads host event ⟨fieldText host event "item_id", fieldText host event "call_id", .delta text⟩
  | argumentsDone {arguments : String} (kind : kindOf host event = .functionCallArgumentsDone)
      (read : textField event "arguments" = some arguments) :
      Reads host event
        ⟨fieldText host event "item_id", fieldText host event "call_id", .argumentsDone arguments⟩
  | added {item : Json} {arguments : Option String} (kind : kindOf host event = .outputItemAdded)
      (isItem : dictField event "item" = some item) (type : itemType host item = "function_call")
      (read : Normalizer.itemArguments item = some arguments) :
      Reads host event ⟨Normalizer.itemIdOf host event item, fieldText host item "call_id",
        .added (fieldText host item "name") arguments (fieldText host item "status")⟩
  | done {item : Json} {arguments : Option String} (kind : kindOf host event = .outputItemDone)
      (isItem : dictField event "item" = some item) (type : itemType host item = "function_call")
      (read : Normalizer.itemArguments item = some arguments) :
      Reads host event ⟨Normalizer.itemIdOf host event item, fieldText host item "call_id",
        .done (fieldText host item "name") arguments (fieldText host item "status")⟩

variable {event item : Json} {entry : Entry}

theorem readItem_eq_some {content : String → Option String → String → CallEvent}
    (read : readItem host event item content = some entry) :
    itemType host item = "function_call" ∧ ∃ arguments, Normalizer.itemArguments item = some arguments ∧
      entry = ⟨Normalizer.itemIdOf host event item, fieldText host item "call_id",
        content (fieldText host item "name") arguments (fieldText host item "status")⟩ := by
  rw [readItem] at read
  by_cases type : itemType host item = "function_call"
  · rw [if_pos type] at read
    obtain ⟨arguments, found, same⟩ := Option.map_eq_some_iff.mp read
    exact ⟨type, arguments, found, same.symm⟩
  · rw [if_neg type] at read
    cases read

theorem readEntry_eq_some (read : readEntry host event = some entry) :
    (∃ fields, event = .obj fields) ∧ Reads host event entry := by
  cases event with
  | obj fields =>
    refine ⟨⟨fields, rfl⟩, ?_⟩
    rw [readEntry] at read
    cases kind : kindOf host (.obj fields) with
    | functionCallArgumentsDelta =>
      simp only [kind] at read
      obtain ⟨text, found, rfl⟩ := Option.map_eq_some_iff.mp read
      exact .delta kind found
    | functionCallArgumentsDone =>
      simp only [kind] at read
      obtain ⟨arguments, found, rfl⟩ := Option.map_eq_some_iff.mp read
      exact .argumentsDone kind found
    | outputItemAdded =>
      simp only [kind] at read
      obtain ⟨item, isItem, found⟩ := Option.bind_eq_some_iff.mp read
      obtain ⟨type, arguments, readArguments, rfl⟩ := readItem_eq_some found
      exact .added kind isItem type readArguments
    | outputItemDone =>
      simp only [kind] at read
      obtain ⟨item, isItem, found⟩ := Option.bind_eq_some_iff.mp read
      obtain ⟨type, arguments, readArguments, rfl⟩ := readItem_eq_some found
      exact .done kind isItem type readArguments
    | _ =>
      simp only [kind] at read
      cases read
  | _ => cases read

theorem mergeFunctionCallItem_added (host : Builtins) (n : Normalizer) (event : Json)
    {arguments : Option String} (found : Normalizer.itemArguments item = some arguments) :
    let entry : Entry := ⟨Normalizer.itemIdOf host event item, fieldText host item "call_id",
      .added (fieldText host item "name") arguments (fieldText host item "status")⟩
    n.mergeFunctionCallItem host item event false =
      (n.updateBucket entry.itemId entry.callId entry.change, none) := by
  intro entry
  rw [Normalizer.mergeFunctionCallItem, found]
  simp only [Bool.false_eq_true, false_and, if_false]
  rfl

theorem mergeFunctionCallItem_done (host : Builtins) (n : Normalizer) (event : Json)
    {arguments : Option String} (found : Normalizer.itemArguments item = some arguments) :
    let entry : Entry := ⟨Normalizer.itemIdOf host event item, fieldText host item "call_id",
      .done (fieldText host item "name") arguments (fieldText host item "status")⟩
    let bucket := entry.change (n.bucketAt (n.bucketKey entry.itemId entry.callId))
    n.mergeFunctionCallItem host item event true =
      (n.updateBucket entry.itemId entry.callId entry.change,
        if Normalizer.missingParts bucket = [] then none
        else some (n.failure ("Responses function_call output_item.done is missing " ++
          ", ".intercalate (Normalizer.missingParts bucket)) "incomplete_function_call"
          (Json.strOr host.repr "" (event.get "type")) 0 [])) := by
  intro entry bucket
  have change : Normalizer.mergeItem (Normalizer.itemIdOf host event item)
      (fieldText host item "call_id") (fieldText host item "name") arguments
      (fieldText host item "status") = entry.change := rfl
  rw [Normalizer.mergeFunctionCallItem, found]
  simp only [true_and, change]
  rw [show (n.updateBucket (Normalizer.itemIdOf host event item) (fieldText host item "call_id")
    entry.change).bucketAt (n.bucketKey (Normalizer.itemIdOf host event item)
      (fieldText host item "call_id")) = bucket from bucketAt_updateBucket _ _ _]
  by_cases complete : Normalizer.missingParts bucket = []
  · rw [if_pos complete, if_neg (not_not.mpr complete)]
  · rw [if_neg complete, if_pos complete]
    rfl

theorem ingest_entry (read : readEntry host event = some entry)
    (named : entry.itemId ≠ "" ∨ entry.callId ≠ "")
    (empty : n.functionCallKeysById.lookup "" = none) :
    n.ingestEvent host event =
      (n.updateBucket entry.itemId entry.callId entry.change,
        given host n event entry
          (entry.change (n.bucketAt (n.bucketKey entry.itemId entry.callId)))) := by
  obtain ⟨⟨fields, rfl⟩, reads⟩ := readEntry_eq_some read
  rw [Normalizer.ingestEvent]
  cases reads with
  | delta kind delta =>
    simp only [kind]
    rw [Normalizer.functionCallArgumentsDelta, delta]
    simp only
    rw [if_neg (by simpa only [not_and_or] using named), bucketAt_updateBucket]
    rfl
  | argumentsDone kind found =>
    simp only [kind]
    rw [Normalizer.functionCallArgumentsDone, found]
    simp only
    rw [if_neg (by simpa only [not_and_or] using named)]
    rfl
  | @added item arguments kind isItem type found =>
    have merged := mergeFunctionCallItem_added host n (.obj fields) found
    simp only [kind]
    rw [Normalizer.outputItemAdded, isItem]
    simp only
    rw [if_pos type, if_neg (by simpa only [not_and_or] using named), merged]
    simp only
    rw [functionCallSnapshot_updateBucket empty named, given, isItem, type]
    rfl
  | @done item arguments kind isItem type found =>
    have merged := mergeFunctionCallItem_done host n (.obj fields) found
    simp only [kind]
    rw [Normalizer.outputItemDone, isItem]
    simp only
    rw [if_neg (not_not.mpr type), merged]
    generalize entryIs : Entry.mk (Normalizer.itemIdOf host (.obj fields) item)
      (fieldText host item "call_id") (.done (fieldText host item "name") arguments
        (fieldText host item "status")) = entry at named ⊢
    have itemId : Normalizer.itemIdOf host (.obj fields) item = entry.itemId := by rw [← entryIs]
    have callId : fieldText host item "call_id" = entry.callId := by rw [← entryIs]
    have isDone : entry.event = .done (fieldText host item "name") arguments
      (fieldText host item "status") := by rw [← entryIs]
    rw [itemId, callId, given, isDone]
    simp only
    by_cases complete :
        Normalizer.missingParts (entry.change (n.bucketAt (n.bucketKey entry.itemId entry.callId))) = []
    · rw [if_pos complete, if_pos complete]
      simp only
      rw [functionCallSnapshot_updateBucket empty named, type]
      rfl
    · rw [if_neg complete, if_neg complete]

/-! ### Other events -/

/-- The tables of the function calls are the same. -/
structure SameCalls (n n' : Normalizer) : Prop where
  buckets : n'.functionCallBuckets = n.functionCallBuckets
  keys : n'.functionCallKeysById = n.functionCallKeysById
  provider : n'.provider = n.provider

theorem SameCalls.refl (n : Normalizer) : SameCalls n n := ⟨rfl, rfl, rfl⟩

theorem SameCalls.trans {n n' n'' : Normalizer} (first : SameCalls n n') (second : SameCalls n' n'') :
    SameCalls n n'' :=
  ⟨second.buckets.trans first.buckets, second.keys.trans first.keys,
    second.provider.trans first.provider⟩

variable {call : Call}

theorem SameCalls.known {n n' : Normalizer} (same : SameCalls n n') {state : CallState}
    (known : Known n call state) : Known n' call state := by
  obtain ⟨buckets, keys, -⟩ := same
  cases state with
  | named linked bucket => cases linked <;> simpa only [Known, buckets, keys] using known
  | _ => simpa only [Known, buckets, keys] using known

theorem sameCalls_refusalEvent (event : Json) (rawType eventType : String) :
    SameCalls n (n.refusalEvent host event rawType eventType).1 := by
  unfold Normalizer.refusalEvent
  dsimp only
  split
  · split
    · exact .refl n
    · exact ⟨rfl, rfl, rfl⟩
  · split
    · exact .refl n
    · split
      · exact ⟨rfl, rfl, rfl⟩
      · exact .refl n

theorem sameCalls_reasoningEvents (event : Json) (rawType eventType : String) :
    SameCalls n (n.reasoningEvents host event rawType eventType).1 := by
  unfold Normalizer.reasoningEvents
  dsimp only
  repeat' split
  all_goals exact ⟨rfl, rfl, rfl⟩

theorem sameCalls_summaryParts (event item : Json) (rawType : String) (index : Nat) (parts : List Json) :
    SameCalls n (Normalizer.summaryParts host event item rawType index n parts).1 := by
  induction parts generalizing n index with
  | nil => exact .refl n
  | cons part parts ih =>
    cases part with
    | obj fields =>
      rw [Normalizer.summaryParts]
      have first := @sameCalls_reasoningEvents host n
        (Normalizer.partEvent host event item rawType index (.obj fields)) rawType (pyLower rawType)
      revert first
      cases n.reasoningEvents host (Normalizer.partEvent host event item rawType index (.obj fields))
          rawType (pyLower rawType) with
      | mk n' given =>
        intro first
        have rest := ih (n := n') (index + 1)
        revert rest
        dsimp only
        cases Normalizer.summaryParts host event item rawType (index + 1) n' parts
        exact first.trans
    | _ =>
      rw [Normalizer.summaryParts]
      · exact ih _
      · exact nofun

theorem sameCalls_reasoningItemDoneEvents (event item : Json) (rawType : String) :
    SameCalls n (n.reasoningItemDoneEvents host event rawType item).1 := by
  unfold Normalizer.reasoningItemDoneEvents
  split
  · exact sameCalls_summaryParts _ _ _ _ _
  · exact .refl n

theorem ingest_of_none (n : Normalizer) (read : readEntry host event = none) :
    SameCalls n (n.ingestEvent host event).1 := by
  cases event with
  | obj fields =>
    rw [readEntry] at read
    rw [Normalizer.ingestEvent]
    cases kind : kindOf host (.obj fields) with
    | outputItemAdded =>
      simp only [kind] at read ⊢
      rw [Normalizer.outputItemAdded]
      cases isItem : dictField (.obj fields) "item" with
      | none => exact .refl n
      | some item =>
        rw [isItem, Option.bind_some, readItem] at read
        simp only
        by_cases type : itemType host item = "function_call"
        · rw [if_pos type] at read ⊢
          have noText := Option.map_eq_none_iff.mp read
          rw [Normalizer.mergeFunctionCallItem, noText]
          split <;> exact .refl n
        · rw [if_neg type]
          exact .refl n
    | outputItemDone =>
      simp only [kind] at read ⊢
      rw [Normalizer.outputItemDone]
      cases isItem : dictField (.obj fields) "item" with
      | none => exact .refl n
      | some item =>
        rw [isItem, Option.bind_some, readItem] at read
        simp only
        by_cases type : itemType host item = "function_call"
        · rw [if_pos type] at read
          have noText := Option.map_eq_none_iff.mp read
          rw [if_neg (not_not.mpr type), Normalizer.mergeFunctionCallItem, noText]
          exact .refl n
        · rw [if_pos type]
          split
          · exact sameCalls_reasoningItemDoneEvents _ _ _
          · exact .refl n
    | functionCallArgumentsDelta =>
      simp only [kind] at read ⊢
      rw [Normalizer.functionCallArgumentsDelta, Option.map_eq_none_iff.mp read]
      exact .refl n
    | functionCallArgumentsDone =>
      simp only [kind] at read ⊢
      rw [Normalizer.functionCallArgumentsDone, Option.map_eq_none_iff.mp read]
      dsimp only
      split <;> exact .refl n
    | refusal =>
      exact sameCalls_refusalEvent _ _ _
    | reasoning =>
      exact sameCalls_reasoningEvents _ _ _
    | _ => exact .refl n
  | _ => exact .refl n

/-! ### A run -/

/-- What is known about a call behind an event. -/
def CallState.step (call : Call) (state : CallState) (entry : Entry) : CallState :=
  match call.naming entry with
  | some naming => (state.next naming entry.change).1
  | none => state

/-- What is known about a call behind the events. -/
def stateAfter (call : Call) (entries : List Entry) : CallState :=
  entries.foldl (CallState.step call) .unseen

/-- The events that name a call. -/
def own (call : Call) (entries : List Entry) : List Entry :=
  entries.filter fun entry => (call.naming entry).isSome

theorem stateAfter_own (call : Call) (entries : List Entry) :
    stateAfter call (own call entries) = stateAfter call entries := by
  rw [stateAfter, own, List.foldl_filter, stateAfter]
  congr 1
  funext state entry
  cases names : call.naming entry with
  | none => simp only [CallState.step, names, Option.isSome_none, Bool.false_eq_true, if_false]
  | some naming => rw [Option.isSome_some, if_pos rfl]

/-- The event is one of the call: it names the call, and its item has the name of the call or none. -/
structure EventOf (call : Call) (entry : Entry) : Prop where
  naming : (call.naming entry).isSome = true
  name : ∀ name arguments status, entry.event = .added name arguments status ∨
    entry.event = .done name arguments status → name = "" ∨ name = call.name

/-- The calls have identifiers, and no two of them share one. -/
structure Apart (calls : Set Call) : Prop where
  named : ∀ call ∈ calls, call.id ≠ "" ∧ call.callId ≠ ""
  ids : calls.InjOn Call.id
  callIds : calls.InjOn Call.callId
  crossed : ∀ call ∈ calls, ∀ other ∈ calls, call ≠ other → call.id ≠ other.callId

/-- The tables hold what the events so far say about each call. -/
structure Tracked (calls : Set Call) (provider : String) (n : Normalizer) (past : List Entry) : Prop where
  provider : n.provider = provider
  empty : n.functionCallKeysById.lookup "" = none
  known : ∀ call ∈ calls, Known n call (stateAfter call past)

variable {naming : Naming}

theorem naming_eq_some (names : call.naming entry = some naming) :
    (entry.itemId = call.id ∨ entry.itemId = "") ∧ (entry.callId = call.callId ∨ entry.callId = "") ∧
      (entry.itemId = call.id ∨ entry.callId = call.callId) := by
  rw [Call.naming] at names
  grind

theorem tracked_start (calls : Set Call) (provider : String) :
    Tracked calls provider { provider := provider } [] :=
  ⟨rfl, rfl, fun _ _ => ⟨rfl, rfl, rfl, rfl⟩⟩

variable {calls : Set Call} {provider : String} {past : List Entry}

theorem Tracked.filed (tracked : Tracked calls provider n past) (apart : Apart calls)
    (mem : call ∈ calls) : Filed n call :=
  ⟨(apart.named call mem).1, (apart.named call mem).2, tracked.empty⟩

theorem Apart.identified (apart : Apart calls) (mem : call ∈ calls)
    (names : call.naming entry = some naming) :
    entry.itemId ≠ "" ∨ entry.callId ≠ "" := by
  obtain ⟨-, -, one⟩ := naming_eq_some names
  have ids := apart.named call mem
  grind

theorem Apart.naming_other (apart : Apart calls) {other : Call} (mem : call ∈ calls)
    (otherMem : other ∈ calls) (ne : other ≠ call) (names : call.naming entry = some naming) :
    other.naming entry = none := by
  obtain ⟨item, callId, one⟩ := naming_eq_some names
  have ids := apart.named call mem
  have otherIds := apart.named other otherMem
  have items : other.id ≠ call.id := fun same => ne (apart.ids otherMem mem same)
  have callIds : other.callId ≠ call.callId := fun same => ne (apart.callIds otherMem mem same)
  rw [Call.naming]
  grind

theorem Tracked.own (tracked : Tracked calls provider n past) (apart : Apart calls)
    (mem : call ∈ calls) (names : call.naming entry = some naming) :
    Tracked calls provider (n.updateBucket entry.itemId entry.callId entry.change) (past ++ [entry]) ∧
      entry.change (n.bucketAt (n.bucketKey entry.itemId entry.callId)) =
        ((stateAfter call past).next naming entry.change).2 := by
  obtain ⟨known, key, bucket⟩ := (tracked.known call mem).own (tracked.filed apart mem) names
    entry.change
  obtain ⟨item, callId, -⟩ := naming_eq_some names
  refine ⟨⟨tracked.provider, ?_, ?_⟩, bucket⟩
  · rw [lookup_keys_updateBucket, if_neg (fun both => both.1 rfl)]
    exact tracked.empty
  · intro other otherMem
    rw [stateAfter, List.foldl_concat]
    by_cases same : other = call
    · subst same
      rw [CallState.step, names]
      exact known
    · rw [CallState.step, apart.naming_other mem otherMem same names]
      have otherIds := apart.named other otherMem
      have items : call.id ≠ other.id := fun equal => same (apart.ids otherMem mem equal.symm)
      have callIds : call.callId ≠ other.callId := fun equal => same (apart.callIds otherMem mem equal.symm)
      have crossed := apart.crossed call mem other otherMem (Ne.symm same)
      have crossed' := apart.crossed other otherMem call mem same
      apply (tracked.known other otherMem).other <;> grind

theorem Tracked.ingest (tracked : Tracked calls provider n past) (apart : Apart calls)
    (about : ∀ entry, readEntry host event = some entry → ∃ call ∈ calls, EventOf call entry) :
    Tracked calls provider (n.ingestEvent host event).1 (past ++ (readEntry host event).toList) := by
  cases read : readEntry host event with
  | none =>
    have same := ingest_of_none n read
    rw [Option.toList_none, List.append_nil]
    exact ⟨same.provider.trans tracked.provider, by rw [same.keys]; exact tracked.empty,
      fun call mem => same.known (tracked.known call mem)⟩
  | some entry =>
    obtain ⟨call, mem, eventOf⟩ := about entry read
    obtain ⟨naming, names⟩ := Option.isSome_iff_exists.mp eventOf.naming
    rw [ingest_entry read (apart.identified mem names) tracked.empty, Option.toList_some]
    exact (tracked.own apart mem names).1

theorem ingestAll_cons (n : Normalizer) (event : Json) (events : List Json) :
    (n.ingestAll host (event :: events)).1 =
      ((n.ingestEvent host event).1.ingestAll host events).1 := rfl

theorem Tracked.ingestAll (tracked : Tracked calls provider n past) (apart : Apart calls)
    {events : List Json}
    (about : ∀ event ∈ events, ∀ entry, readEntry host event = some entry →
      ∃ call ∈ calls, EventOf call entry) :
    Tracked calls provider (n.ingestAll host events).1 (past ++ events.filterMap (readEntry host)) := by
  induction events generalizing n past with
  | nil =>
    rw [List.filterMap_nil, List.append_nil]
    exact tracked
  | cons event events ih =>
    obtain ⟨first, rest⟩ := List.forall_mem_cons.mp about
    have later := ih (tracked.ingest apart first) rest
    rw [ingestAll_cons, List.filterMap_cons]
    cases read : readEntry host event with
    | none =>
      rw [read, Option.toList_none, List.append_nil] at later
      exact later
    | some entry =>
      rw [read, Option.toList_some, List.append_assoc] at later
      exact later

end

end AgentPark.Providers
