import AgentPark.Providers.FunctionCalls
import Mathlib.Data.List.Induction

/-!
# The arguments of streamed function calls
-/

namespace AgentPark.Providers

open Lib

/-! ### The events of one call -/

section

variable {call : Call} {entries : List Entry} {entry : Entry}

/-- The bucket behind the events that were written to it. -/
def recorded (entries : List Entry) : Bucket := entries.foldl (fun bucket entry => entry.change bucket) {}

theorem recorded_concat (entries : List Entry) (entry : Entry) :
    recorded (entries ++ [entry]) = entry.change (recorded entries) := List.foldl_concat ..

/-- The event names the call this way. -/
def namedBy (call : Call) (naming : Naming) (entry : Entry) : Bool := call.naming entry = some naming

/-- The events before the first one that names the call both ways. -/
def beforeBoth (call : Call) (entries : List Entry) : List Entry :=
  entries.takeWhile fun entry => !namedBy call .both entry

/-- The events from the first one on that names the call both ways. -/
def fromBoth (call : Call) (entries : List Entry) : List Entry :=
  entries.dropWhile fun entry => !namedBy call .both entry

/-- The events that count once a call has been named both ways.  Those that named it by the call
identifier alone are lost when others had named the item. -/
def kept (call : Call) (entries : List Entry) : List Entry :=
  let items := (beforeBoth call entries).filter (namedBy call .item)
  (if items = [] then beforeBoth call entries else items) ++ fromBoth call entries

/-- The events that are lost once a call has been named both ways. -/
def lost (call : Call) (entries : List Entry) : List Entry :=
  if (beforeBoth call entries).filter (namedBy call .item) = [] then []
  else (beforeBoth call entries).filter (namedBy call .call)

/-- What is known about a call that has not been named both ways. -/
def apartState (items calls : List Entry) : CallState :=
  if items = [] then if calls = [] then .unseen else .named .call (recorded calls)
  else if calls = [] then .named .item (recorded items)
  else .split (recorded items) (recorded calls)

theorem stateAfter_concat (call : Call) (entries : List Entry) (entry : Entry) :
    stateAfter call (entries ++ [entry]) = (stateAfter call entries).step call entry :=
  List.foldl_concat ..

theorem stateAfter_apart (all : ∀ entry ∈ entries, (call.naming entry).isSome = true)
    (notBoth : ∀ entry ∈ entries, namedBy call .both entry = false) :
    stateAfter call entries =
      apartState (entries.filter (namedBy call .item)) (entries.filter (namedBy call .call)) := by
  induction entries using List.reverseRecOn with
  | nil => rfl
  | append_singleton entries entry ih =>
    obtain ⟨allBefore, allLast⟩ := List.forall_mem_append.mp all
    obtain ⟨bothBefore, bothLast⟩ := List.forall_mem_append.mp notBoth
    have before := ih allBefore bothBefore
    have some := allLast entry (List.mem_singleton_self entry)
    have apart := bothLast entry (List.mem_singleton_self entry)
    rw [stateAfter_concat, before, List.filter_append, List.filter_append]
    generalize entries.filter (namedBy call .item) = items
    generalize entries.filter (namedBy call .call) = calls
    cases names : call.naming entry with
    | none => rw [names] at some; cases some
    | some naming =>
      cases naming with
      | both =>
        rw [namedBy, names] at apart
        exact absurd apart (by decide)
      | item =>
        have yes : [entry].filter (namedBy call .item) = [entry] := by
          simp [namedBy, names]
        have no : [entry].filter (namedBy call .call) = [] := by
          simp [namedBy, names]
        rw [yes, no, List.append_nil, CallState.step, names]
        unfold apartState
        cases items with
        | nil => cases calls with
          | nil => rfl
          | cons c cs => rfl
        | cons i is => cases calls with
          | nil => simp [CallState.next, ← recorded_concat]
          | cons c cs => simp [CallState.next, ← recorded_concat]
      | call =>
        have yes : [entry].filter (namedBy call .call) = [entry] := by
          simp [namedBy, names]
        have no : [entry].filter (namedBy call .item) = [] := by
          simp [namedBy, names]
        rw [yes, no, List.append_nil, CallState.step, names]
        unfold apartState
        cases items with
        | nil | cons => cases calls with
          | nil => rfl
          | cons c cs => simp [CallState.next, ← recorded_concat]

theorem next_both (all : ∀ entry ∈ entries, (call.naming entry).isSome = true)
    (notBoth : ∀ entry ∈ entries, namedBy call .both entry = false) (change : Bucket → Bucket) :
    let items := entries.filter (namedBy call .item)
    let counting := if items = [] then entries else items
    (stateAfter call entries).next .both change =
      (.named .both (change (recorded counting)), change (recorded counting)) := by
  intro items counting
  have calls : items = [] → entries.filter (namedBy call .call) = entries := by
    intro none
    rw [List.filter_eq_self]
    intro entry mem
    have notItem : namedBy call .item entry ≠ true := List.filter_eq_nil_iff.mp none entry mem
    obtain ⟨naming, names⟩ := Option.isSome_iff_exists.mp (all entry mem)
    have apart := notBoth entry mem
    cases naming with
    | item => exact absurd (decide_eq_true names) notItem
    | call => exact decide_eq_true names
    | both => exact absurd ((decide_eq_true names).symm.trans apart) (by decide)
  rw [stateAfter_apart all notBoth]
  unfold apartState
  by_cases none : items = []
  · have counted : counting = entries := if_pos none
    rw [if_pos none, calls none, counted]
    by_cases empty : entries = []
    · rw [if_pos empty, empty]
      rfl
    · rw [if_neg empty]
      rfl
  · have counted : counting = items := if_neg none
    rw [if_neg none, counted]
    split <;> rfl

theorem beforeBoth_append_fromBoth (call : Call) (entries : List Entry) :
    beforeBoth call entries ++ fromBoth call entries = entries := List.takeWhile_append_dropWhile

theorem not_both_of_beforeBoth (call : Call) (entries : List Entry) :
    ∀ entry ∈ beforeBoth call entries, namedBy call .both entry = false := by
  intro entry mem
  have holds := List.mem_takeWhile_imp mem
  simpa using holds

theorem foldl_step_both (all : ∀ entry ∈ entries, (call.naming entry).isSome = true) (bucket : Bucket) :
    entries.foldl (CallState.step call) (.named .both bucket) =
      .named .both (entries.foldl (fun bucket entry => entry.change bucket) bucket) := by
  induction entries generalizing bucket with
  | nil => rfl
  | cons entry entries ih =>
    obtain ⟨first, rest⟩ := List.forall_mem_cons.mp all
    obtain ⟨naming, names⟩ := Option.isSome_iff_exists.mp first
    rw [List.foldl_cons, CallState.step, names]
    exact ih rest (entry.change bucket)

theorem stateAfter_kept (all : ∀ entry ∈ entries, (call.naming entry).isSome = true)
    (both : fromBoth call entries ≠ []) :
    stateAfter call entries = .named .both (recorded (kept call entries)) := by
  have split := beforeBoth_append_fromBoth call entries
  obtain ⟨first, rest, isFirst⟩ := List.exists_cons_of_ne_nil both
  have names : namedBy call .both first = true := by
    have head := List.head?_dropWhile_not (fun entry => !namedBy call .both entry) entries
    rw [show entries.dropWhile (fun entry => !namedBy call .both entry) = first :: rest from isFirst] at head
    simpa using head
  have allBefore : ∀ entry ∈ beforeBoth call entries, (call.naming entry).isSome = true := fun entry mem =>
    all entry (split ▸ List.mem_append_left _ mem)
  have allRest : ∀ entry ∈ rest, (call.naming entry).isSome = true := fun entry mem =>
    all entry (split ▸ List.mem_append_right _ (isFirst ▸ List.mem_cons_of_mem _ mem))
  have joined := next_both allBefore (not_both_of_beforeBoth call entries) first.change
  have state : stateAfter call entries =
      (first :: rest).foldl (CallState.step call) (stateAfter call (beforeBoth call entries)) := by
    calc stateAfter call entries
        = (beforeBoth call entries ++ fromBoth call entries).foldl (CallState.step call) .unseen := by
          rw [split]
          rfl
      _ = _ := by
          rw [List.foldl_append, isFirst]
          rfl
  have step : (stateAfter call (beforeBoth call entries)).step call first =
      ((stateAfter call (beforeBoth call entries)).next .both first.change).1 := by
    rw [CallState.step, of_decide_eq_true names]
  have record : ∀ counting : List Entry, recorded (counting ++ first :: rest) =
      rest.foldl (fun bucket entry => entry.change bucket) (first.change (recorded counting)) := by
    intro counting
    rw [recorded, List.foldl_append]
    rfl
  rw [state, List.foldl_cons, step, joined, foldl_step_both allRest, kept, isFirst, record]

theorem change_id (entry : Entry) (bucket : Bucket) :
    (entry.change bucket).id = if entry.itemId = "" then bucket.id else entry.itemId := by
  obtain ⟨itemId, callId, event⟩ := entry
  cases event <;> rfl

theorem change_callId (entry : Entry) (bucket : Bucket) :
    (entry.change bucket).callId = if entry.callId = "" then bucket.callId else entry.callId := by
  obtain ⟨itemId, callId, event⟩ := entry
  cases event <;> rfl

theorem recorded_id_of_empty (empty : ∀ entry ∈ entries, entry.itemId = "") : (recorded entries).id = "" := by
  induction entries using List.reverseRecOn with
  | nil => rfl
  | append_singleton entries entry ih =>
    obtain ⟨before, last⟩ := List.forall_mem_append.mp empty
    rw [recorded_concat, change_id, if_pos (last entry (List.mem_singleton_self entry)), ih before]

theorem recorded_callId_of_empty (empty : ∀ entry ∈ entries, entry.callId = "") :
    (recorded entries).callId = "" := by
  induction entries using List.reverseRecOn with
  | nil => rfl
  | append_singleton entries entry ih =>
    obtain ⟨before, last⟩ := List.forall_mem_append.mp empty
    rw [recorded_concat, change_callId, if_pos (last entry (List.mem_singleton_self entry)), ih before]

theorem missingParts_eq_nil (bucket : Bucket) : Normalizer.missingParts bucket = [] ↔
    pyStrip bucket.id ≠ "" ∧ pyStrip bucket.callId ≠ "" ∧ pyStrip bucket.name ≠ "" ∧
      bucket.argumentsSeen = true := by
  rw [Normalizer.missingParts, List.append_eq_nil_iff, List.append_eq_nil_iff, List.append_eq_nil_iff]
  simp [and_assoc]

theorem naming_item {entry : Entry} (names : call.naming entry = some .item) : entry.callId = "" := by
  rw [Call.naming] at names
  grind

theorem naming_call {entry : Entry} (names : call.naming entry = some .call) : entry.itemId = "" := by
  rw [Call.naming] at names
  grind

theorem bucket_of_both (all : ∀ entry ∈ entries, (call.naming entry).isSome = true)
    (change : Bucket → Bucket) :
    ((stateAfter call entries).next .both change).2 = change (recorded (kept call entries)) := by
  by_cases both : fromBoth call entries = []
  · have whole := beforeBoth_append_fromBoth call entries
    rw [both, List.append_nil] at whole
    have notBoth := not_both_of_beforeBoth call entries
    rw [whole] at notBoth
    rw [next_both all notBoth, kept, both, whole, List.append_nil]
  · rw [stateAfter_kept all both]
    rfl

theorem bucket_of_complete (all : ∀ entry ∈ entries, (call.naming entry).isSome = true) {naming : Naming}
    (names : call.naming entry = some naming)
    (complete : Normalizer.missingParts ((stateAfter call entries).next naming entry.change).2 = []) :
    ((stateAfter call entries).next naming entry.change).2 =
      entry.change (recorded (kept call entries)) := by
  by_cases both : fromBoth call entries = []
  · have whole : beforeBoth call entries = entries := by
      have split := beforeBoth_append_fromBoth call entries
      rw [both, List.append_nil] at split
      exact split
    have notBoth := not_both_of_beforeBoth call entries
    rw [whole] at notBoth
    obtain ⟨item, callId, -, -⟩ := (missingParts_eq_nil _).mp complete
    cases naming with
    | both => exact bucket_of_both all entry.change
    | item =>
      -- nothing under the item identifier has the identifier of the call
      exfalso
      apply callId
      have bucket : ((stateAfter call entries).next .item entry.change).2 =
          entry.change (recorded (entries.filter (namedBy call .item))) := by
        rw [stateAfter_apart all notBoth]
        generalize entries.filter (namedBy call .item) = items
        generalize entries.filter (namedBy call .call) = calls
        cases items <;> cases calls <;> rfl
      have none : (recorded (entries.filter (namedBy call .item))).callId = "" := by
        apply recorded_callId_of_empty
        intro other mem
        exact naming_item (of_decide_eq_true (List.mem_filter.mp mem).2)
      rw [bucket, change_callId, if_pos (naming_item names), none]
      rfl
    | call =>
      exfalso
      apply item
      have bucket : ((stateAfter call entries).next .call entry.change).2 =
          entry.change (recorded (entries.filter (namedBy call .call))) := by
        rw [stateAfter_apart all notBoth]
        generalize entries.filter (namedBy call .item) = items
        generalize entries.filter (namedBy call .call) = calls
        cases items <;> cases calls <;> rfl
      have none : (recorded (entries.filter (namedBy call .call))).id = "" := by
        apply recorded_id_of_empty
        intro other mem
        exact naming_call (of_decide_eq_true (List.mem_filter.mp mem).2)
      rw [bucket, change_id, if_pos (naming_call names), none]
      rfl
  · rw [stateAfter_kept all both]
    cases naming <;> rfl

/-! ### The arguments -/

/-- The place of an event among the events of its call. -/
def Entry.rank (entry : Entry) : Nat :=
  match entry.event with
  | .added .. => 0
  | .delta _ => 1
  | .argumentsDone _ => 2
  | .done .. => 3

/-- The events of a call in their own order: at most one item that is added, deltas, at most one event
that ends the arguments. -/
def Ordered (entries : List Entry) : Prop :=
  (∀ entry ∈ entries, entry.rank < 3) ∧
    entries.Pairwise fun first second => first.rank < second.rank ∨ first.rank = 1 ∧ second.rank = 1

def deltaText (entry : Entry) : String :=
  match entry.event with
  | .delta text => text
  | _ => ""

/-- The concatenation of the deltas. -/
def texts : List Entry → String
  | [] => ""
  | entry :: entries => deltaText entry ++ texts entries

theorem texts_append (front back : List Entry) : texts (front ++ back) = texts front ++ texts back := by
  induction front with
  | nil => rw [List.nil_append, texts, String.empty_append]
  | cons entry front ih => rw [List.cons_append, texts, texts, ih, String.append_assoc]

theorem texts_filter {keep : Entry → Bool}
    (silent : ∀ entry ∈ entries, keep entry = false → deltaText entry = "") :
    texts (entries.filter keep) = texts entries := by
  induction entries with
  | nil => rfl
  | cons entry entries ih =>
    obtain ⟨first, rest⟩ := List.forall_mem_cons.mp silent
    rw [List.filter_cons, texts, ← ih rest]
    cases keeps : keep entry with
    | true => rfl
    | false => rw [first keeps, String.empty_append]; rfl

theorem kept_sublist (call : Call) (entries : List Entry) : (kept call entries).Sublist entries := by
  have split := beforeBoth_append_fromBoth call entries
  have part : (kept call entries).Sublist (beforeBoth call entries ++ fromBoth call entries) := by
    rw [kept]
    apply List.Sublist.append _ (List.Sublist.refl _)
    split_ifs
    · exact List.Sublist.refl _
    · exact List.filter_sublist
  rw [split] at part
  exact part

theorem texts_kept (all : ∀ entry ∈ entries, (call.naming entry).isSome = true)
    (silent : ∀ entry ∈ lost call entries, deltaText entry = "") :
    texts (kept call entries) = texts entries := by
  have split := beforeBoth_append_fromBoth call entries
  have whole : texts entries = texts (beforeBoth call entries) ++ texts (fromBoth call entries) := by
    rw [← texts_append, split]
  rw [whole, kept, texts_append]
  by_cases none : (beforeBoth call entries).filter (namedBy call .item) = []
  · rw [if_pos none]
  · rw [if_neg none, texts_filter]
    intro entry mem notItem
    apply silent
    rw [lost, if_neg none]
    refine List.mem_filter.mpr ⟨mem, ?_⟩
    have inEntries : entry ∈ entries := split ▸ List.mem_append_left _ mem
    obtain ⟨naming, names⟩ := Option.isSome_iff_exists.mp (all entry inEntries)
    have notBoth := not_both_of_beforeBoth call entries entry mem
    cases naming with
    | item => exact absurd ((decide_eq_true names).symm.trans notItem) (by decide)
    | call => exact decide_eq_true names
    | both => exact absurd ((decide_eq_true names).symm.trans notBoth) (by decide)

theorem Ordered.sublist {part : List Entry} (ordered : Ordered entries) (sub : part.Sublist entries) :
    Ordered part :=
  ⟨fun entry mem => ordered.1 entry (sub.subset mem), ordered.2.sublist sub⟩

theorem arguments_recorded {whole : String} (ordered : Ordered entries)
    (plain : ∀ entry ∈ entries, ∀ name arguments status, entry.event = .added name arguments status →
      arguments = none ∨ arguments = some "")
    (told : ∀ entry ∈ entries, ∀ arguments, entry.event = .argumentsDone arguments → arguments = whole) :
    (recorded entries).arguments =
      if ∃ entry ∈ entries, entry.rank = 2 then whole else texts entries := by
  induction entries using List.reverseRecOn with
  | nil => simp [recorded, texts]
  | append_singleton entries entry ih =>
    obtain ⟨plainBefore, plainLast⟩ := List.forall_mem_append.mp plain
    obtain ⟨toldBefore, toldLast⟩ := List.forall_mem_append.mp told
    have before := ih (ordered.sublist (List.sublist_append_left _ _)) plainBefore toldBefore
    have last := List.mem_singleton_self entry
    have ranks : ∀ other ∈ entries, other.rank < entry.rank ∨ other.rank = 1 ∧ entry.rank = 1 :=
      fun other mem => (List.pairwise_append.mp ordered.2).2.2 other mem entry last
    have small := ordered.1 entry (List.mem_append_right _ last)
    rw [recorded_concat, texts_append]
    obtain ⟨itemId, callId, event⟩ := entry
    cases event with
    | added name arguments status =>
      -- nothing stands before the item that is added
      have first : entries = [] := by
        rw [List.eq_nil_iff_forall_not_mem]
        intro other mem
        have rank := ranks other mem
        simp only [Entry.rank] at rank
        omega
      subst first
      have empty := plainLast _ last name arguments status rfl
      have value : arguments.getD "" = "" := by
        rcases empty with none | some
        · rw [none]; rfl
        · rw [some]; rfl
      have left : (Entry.change ⟨itemId, callId, .added name arguments status⟩ (recorded [])).arguments =
          arguments.getD "" := rfl
      rw [left, value, if_neg (by simp [Entry.rank])]
      rfl
    | delta text =>
      have noEnd : ¬ ∃ other ∈ entries, other.rank = 2 := by
        intro ⟨other, mem, ends⟩
        have rank := ranks other mem
        simp only [Entry.rank] at rank ends
        omega
      rw [if_neg noEnd] at before
      have left : (Entry.change ⟨itemId, callId, .delta text⟩ (recorded entries)).arguments =
          (recorded entries).arguments ++ text := rfl
      rw [left, before, if_neg]
      · rw [texts, texts, deltaText, String.append_empty]
      · intro ⟨other, mem, ends⟩
        rcases List.mem_append.mp mem with old | new
        · exact noEnd ⟨other, old, ends⟩
        · rw [List.mem_singleton.mp new] at ends
          cases ends
    | argumentsDone arguments =>
      rw [if_pos ⟨_, List.mem_append_right _ last, rfl⟩, ← toldLast _ last arguments rfl]
      rfl
    | done name arguments status =>
      simp only [Entry.rank] at small
      omega

/-- The condition for the arguments of a call whose final item has `arguments`, behind the events
`entries`: the item has arguments; or the item was added without arguments, the event that ends them says
what the deltas say and is not lost, or else no delta with text is lost. -/
structure Intact (call : Call) (entries : List Entry) (arguments : Option String) : Prop where
  plain : arguments = none → ∀ entry ∈ entries, ∀ name arguments status,
    entry.event = .added name arguments status → arguments = none ∨ arguments = some ""
  told : arguments = none → ∀ entry ∈ entries, ∀ text,
    entry.event = .argumentsDone text → text = texts entries
  unharmed : arguments = none → (∃ entry ∈ kept call entries, entry.rank = 2) ∨
    ∀ entry ∈ lost call entries, deltaText entry = ""

theorem Intact.arguments {arguments : Option String} (intact : Intact call entries arguments)
    (all : ∀ entry ∈ entries, (call.naming entry).isSome = true) (ordered : Ordered entries) :
    arguments.getD (recorded (kept call entries)).arguments = arguments.getD (texts entries) := by
  cases arguments with
  | some text => rfl
  | none =>
    have sub := kept_sublist call entries
    have sum := arguments_recorded (ordered.sublist sub)
      (fun entry mem => intact.plain rfl entry (sub.subset mem))
      (fun entry mem => intact.told rfl entry (sub.subset mem))
    rw [Option.getD_none, Option.getD_none, sum]
    by_cases ends : ∃ entry ∈ kept call entries, entry.rank = 2
    · rw [if_pos ends]
    · rw [if_neg ends]
      rcases intact.unharmed rfl with ended | silent
      · exact absurd ended ends
      · exact texts_kept all silent

/-! ### The other parts -/

theorem change_name (entry : Entry) (bucket : Bucket) :
    (entry.change bucket).name = bucket.name ∨ ∃ name arguments status,
      (entry.event = .added name arguments status ∨ entry.event = .done name arguments status) ∧
        (entry.change bucket).name = if name = "" then bucket.name else name := by
  obtain ⟨itemId, callId, event⟩ := entry
  cases event with
  | added name arguments status => exact .inr ⟨name, arguments, status, .inl rfl, rfl⟩
  | done name arguments status => exact .inr ⟨name, arguments, status, .inr rfl, rfl⟩
  | delta text => exact .inl rfl
  | argumentsDone arguments => exact .inl rfl

theorem change_name_of_done {name status : String} {arguments : Option String}
    (isDone : entry.event = .done name arguments status) (notEmpty : name ≠ "") (bucket : Bucket) :
    (entry.change bucket).name = name := by
  obtain ⟨itemId, callId, event⟩ := entry
  cases isDone
  exact if_neg notEmpty

theorem change_argumentsSeen_of_done {name status : String} {arguments : Option String}
    (isDone : entry.event = .done name arguments status) (bucket : Bucket) :
    (entry.change bucket).argumentsSeen = (arguments.isSome || bucket.argumentsSeen) := by
  obtain ⟨itemId, callId, event⟩ := entry
  cases isDone
  rfl

/-- The bucket has the identifiers and the name of the call, as far as it has any. -/
structure Bucket.Of (call : Call) (bucket : Bucket) : Prop where
  id : bucket.id = "" ∨ bucket.id = call.id
  callId : bucket.callId = "" ∨ bucket.callId = call.callId
  name : bucket.name = "" ∨ bucket.name = call.name

theorem Bucket.Of.change {bucket : Bucket} (bucketOf : bucket.Of call) (eventOf : EventOf call entry) :
    (entry.change bucket).Of call := by
  obtain ⟨naming, names⟩ := Option.isSome_iff_exists.mp eventOf.naming
  obtain ⟨item, callId, -⟩ := naming_eq_some names
  constructor
  · rw [change_id]
    have old := bucketOf.id
    grind
  · rw [change_callId]
    have old := bucketOf.callId
    grind
  · rcases change_name entry bucket with same | ⟨name, arguments, status, tells, written⟩
    · rw [same]
      exact bucketOf.name
    · rw [written]
      have old := bucketOf.name
      have new := eventOf.name name arguments status tells
      grind

theorem recorded_of (all : ∀ entry ∈ entries, EventOf call entry) : (recorded entries).Of call := by
  induction entries using List.reverseRecOn with
  | nil => exact ⟨.inl rfl, .inl rfl, .inl rfl⟩
  | append_singleton entries entry ih =>
    obtain ⟨before, last⟩ := List.forall_mem_append.mp all
    rw [recorded_concat]
    exact (ih before).change (last entry (List.mem_singleton_self entry))

/-- The buckets of a state have the identifiers and the name of the call. -/
def CallState.Of (call : Call) : CallState → Prop
  | .unseen => True
  | .named _ bucket => bucket.Of call
  | .split itemBucket callBucket => itemBucket.Of call ∧ callBucket.Of call

theorem CallState.Of.next {state : CallState} (stateOf : state.Of call) (eventOf : EventOf call entry)
    (naming : Naming) :
    (state.next naming entry.change).1.Of call ∧ (state.next naming entry.change).2.Of call := by
  have fresh : (entry.change {}).Of call := Bucket.Of.change ⟨.inl rfl, .inl rfl, .inl rfl⟩ eventOf
  cases state with
  | unseen => exact ⟨fresh, fresh⟩
  | named linked bucket =>
    have changed := Bucket.Of.change stateOf eventOf
    cases linked with
    | both => exact ⟨changed, changed⟩
    | item => cases naming with
      | call => exact ⟨⟨stateOf, fresh⟩, fresh⟩
      | _ => exact ⟨changed, changed⟩
    | call => cases naming with
      | item => exact ⟨⟨fresh, stateOf⟩, fresh⟩
      | _ => exact ⟨changed, changed⟩
  | split itemBucket callBucket =>
    have item := Bucket.Of.change stateOf.1 eventOf
    have other := Bucket.Of.change stateOf.2 eventOf
    cases naming with
    | item => exact ⟨⟨item, stateOf.2⟩, item⟩
    | call => exact ⟨⟨stateOf.1, other⟩, other⟩
    | both => exact ⟨item, item⟩

theorem stateAfter_of (all : ∀ entry ∈ entries, EventOf call entry) : (stateAfter call entries).Of call := by
  induction entries using List.reverseRecOn with
  | nil => trivial
  | append_singleton entries entry ih =>
    obtain ⟨before, last⟩ := List.forall_mem_append.mp all
    have eventOf := last entry (List.mem_singleton_self entry)
    obtain ⟨naming, names⟩ := Option.isSome_iff_exists.mp eventOf.naming
    rw [stateAfter_concat, CallState.step, names]
    exact ((ih before).next eventOf naming).1

theorem recorded_seen (seen : ∃ entry ∈ entries, entry.rank = 1 ∨ entry.rank = 2) :
    (recorded entries).argumentsSeen = true := by
  induction entries using List.reverseRecOn with
  | nil =>
    obtain ⟨entry, mem, -⟩ := seen
    cases mem
  | append_singleton entries entry ih =>
    obtain ⟨other, mem, rank⟩ := seen
    rw [recorded_concat]
    rcases List.mem_append.mp mem with old | new
    · have before := ih ⟨other, old, rank⟩
      obtain ⟨itemId, callId, event⟩ := entry
      cases event with
      | delta text => rfl
      | argumentsDone text => rfl
      | added name arguments status | done name arguments status =>
        have kept : (Normalizer.mergeItem itemId callId name arguments status
            (recorded entries)).argumentsSeen = (arguments.isSome || (recorded entries).argumentsSeen) := rfl
        exact kept.trans (by rw [before, Bool.or_true])
    · rw [List.mem_singleton.mp new] at rank
      obtain ⟨itemId, callId, event⟩ := entry
      cases event with
      | delta text => rfl
      | argumentsDone text => rfl
      | added name arguments status => simp [Entry.rank] at rank
      | done name arguments status => simp [Entry.rank] at rank

end

/-! ### What is given for the events of a call -/

section

variable {host : Builtins} {calls : Set Call} {stream : List Json}

/-- The event names the call. -/
def ofCall (host : Builtins) (call : Call) (event : Json) : Bool :=
  match readEntry host event with
  | some entry => (call.naming entry).isSome
  | none => false

/-- The events of a call in a stream. -/
def eventsOf (host : Builtins) (call : Call) (stream : List Json) : List Entry :=
  own call (stream.filterMap (readEntry host))

theorem eventsOf_filter (call : Call) (stream : List Json) :
    eventsOf host call (stream.filter (ofCall host call)) = eventsOf host call stream := by
  induction stream with
  | nil => rfl
  | cons event stream ih =>
    rw [List.filter_cons]
    cases read : readEntry host event with
    | none =>
      have other : ofCall host call event = false := by
        simp only [ofCall, read]
      rw [other, if_neg Bool.false_ne_true, ih]
      simp only [eventsOf, List.filterMap_cons_none read]
    | some entry =>
      have same : ofCall host call event = (call.naming entry).isSome := by
        simp only [ofCall, read]
      simp only [eventsOf, own] at ih ⊢
      rw [same, List.filterMap_cons_some read, List.filter_cons]
      cases names : (call.naming entry).isSome with
      | true =>
        rw [if_pos rfl, List.filterMap_cons_some read, List.filter_cons, names, if_pos rfl, if_pos rfl,
          ih]
      | false =>
        rw [if_neg Bool.false_ne_true, if_neg Bool.false_ne_true, ih]

/-- What a stream is: every event about a function call is one of the calls. -/
def Streams (host : Builtins) (calls : Set Call) (stream : List Json) : Prop :=
  ∀ event ∈ stream, ∀ entry, readEntry host event = some entry → ∃ call ∈ calls, EventOf call entry

theorem ingest_after (apart : Apart calls) (provider : String) (streams : Streams host calls stream)
    {call : Call} (mem : call ∈ calls) {event : Json} {entry : Entry} {naming : Naming}
    (read : readEntry host event = some entry) (names : call.naming entry = some naming) :
    ((({ provider := provider } : Normalizer).ingestAll host stream).1.ingestEvent host event).2 =
      given host { provider := provider } event entry
        ((stateAfter call (eventsOf host call stream)).next naming entry.change).2 := by
  have tracked := (tracked_start calls provider).ingestAll apart streams
  rw [List.nil_append] at tracked
  have bucket := (tracked.own apart mem names).2
  rw [ingest_entry read (apart.identified mem names) tracked.empty, bucket, eventsOf, stateAfter_own]
  simp only [given, Normalizer.failure, tracked.provider]

theorem Streams.eventOf (streams : Streams host calls stream) (apart : Apart calls) {call : Call}
    (mem : call ∈ calls) {event : Json} (inStream : event ∈ stream) {entry : Entry}
    (read : readEntry host event = some entry) (names : (call.naming entry).isSome = true) :
    EventOf call entry := by
  obtain ⟨other, otherMem, eventOf⟩ := streams event inStream entry read
  by_cases same : call = other
  · subst same
    exact eventOf
  · obtain ⟨naming, otherNames⟩ := Option.isSome_iff_exists.mp eventOf.naming
    rw [apart.naming_other otherMem mem same otherNames] at names
    cases names

theorem Streams.eventsOf (streams : Streams host calls stream) (apart : Apart calls) {call : Call}
    (mem : call ∈ calls) : ∀ entry ∈ eventsOf host call stream, EventOf call entry := by
  intro entry isEvent
  obtain ⟨inRead, names⟩ := List.mem_filter.mp isEvent
  obtain ⟨event, inStream, read⟩ := List.mem_filterMap.mp inRead
  exact streams.eventOf apart mem inStream read names

theorem Streams.sublist {part : List Json} (streams : Streams host calls stream)
    (sub : part.Sublist stream) : Streams host calls part :=
  fun event mem => streams event (sub.subset mem)

theorem readEntry_stripped {event : Json} {entry : Entry} (read : readEntry host event = some entry) :
    pyStrip entry.itemId = entry.itemId ∧ pyStrip entry.callId = entry.callId ∧
      ∀ name arguments status, entry.event = .done name arguments status → pyStrip name = name := by
  obtain ⟨-, reads⟩ := readEntry_eq_some read
  cases reads with
  | delta => exact ⟨pyStrip_pyStrip _, pyStrip_pyStrip _, nofun⟩
  | argumentsDone => exact ⟨pyStrip_pyStrip _, pyStrip_pyStrip _, nofun⟩
  | added => exact ⟨pyStrip_pyStrip _, pyStrip_pyStrip _, nofun⟩
  | done =>
    refine ⟨pyStrip_pyStrip _, pyStrip_pyStrip _, ?_⟩
    intro name arguments status same
    cases same
    exact pyStrip_pyStrip _

theorem given_done {call : Call} {past : List Entry} (all : ∀ entry ∈ past, EventOf call entry)
    (ordered : Ordered past) {entry : Entry} (eventOf : EventOf call entry) {naming : Naming}
    (names : call.naming entry = some naming) {name status : String} {arguments : Option String}
    (isDone : entry.event = .done name arguments status) (intact : Intact call past arguments)
    (complete : Normalizer.missingParts ((stateAfter call past).next naming entry.change).2 = []) :
    let bucket := ((stateAfter call past).next naming entry.change).2
    bucket.id = call.id ∧ bucket.callId = call.callId ∧ bucket.name = call.name ∧
      bucket.arguments = arguments.getD (texts past) := by
  have allNamed : ∀ entry ∈ past, (call.naming entry).isSome = true := fun entry mem => (all entry mem).naming
  have written := bucket_of_complete allNamed names complete
  rw [written] at complete ⊢
  obtain ⟨id, callId, ownName, -⟩ := (missingParts_eq_nil _).mp complete
  have sub := kept_sublist call past
  have bucketOf := (recorded_of fun entry mem => all entry (sub.subset mem)).change eventOf
  have notEmpty : ∀ {text : String}, pyStrip text ≠ "" → text ≠ "" := by
    intro text stripped same
    rw [same] at stripped
    exact stripped rfl
  refine ⟨?_, ?_, ?_, ?_⟩
  · exact bucketOf.id.resolve_left (notEmpty id)
  · exact bucketOf.callId.resolve_left (notEmpty callId)
  · exact bucketOf.name.resolve_left (notEmpty ownName)
  · have left : (entry.change (recorded (kept call past))).arguments =
        arguments.getD (recorded (kept call past)).arguments := by
      obtain ⟨itemId, callId, event⟩ := entry
      cases isDone
      rfl
    rw [left]
    exact intact.arguments allNamed ordered

/-- The condition for the calls of a stream: when the final item of a call arrives, the events of the call
came in their own order and its arguments are intact. -/
def AllIntact (host : Builtins) (calls : Set Call) (stream : List Json) : Prop :=
  ∀ i event call entry name arguments status, stream[i]? = some event → call ∈ calls →
    readEntry host event = some entry → (call.naming entry).isSome = true →
    entry.event = .done name arguments status →
    Ordered (eventsOf host call (stream.take i)) ∧ Intact call (eventsOf host call (stream.take i)) arguments

/-- What the normalizer gives for an event behind the others. -/
def givenAfter (host : Builtins) (provider : String) (past : List Json) (event : Json) : List StreamEvent :=
  ((({ provider := provider } : Normalizer).ingestAll host past).1.ingestEvent host event).2

/-- The function calls of a stream never mix, whatever the interleaving.  What is given for an event is
what is given when only the events of its call arrive; a delta is given under the identifiers of its call;
and a finished item is that of its call, with the arguments of the final item, or else the concatenation of
the deltas. -/
theorem functionCalls_exact (host : Builtins) (provider : String) (calls : Set Call) (apart : Apart calls)
    (stream : List Json) (streams : Streams host calls stream) (intact : AllIntact host calls stream)
    (i : Nat) (event : Json) (here : stream[i]? = some event) (call : Call) (mem : call ∈ calls)
    (entry : Entry) (read : readEntry host event = some entry)
    (names : (call.naming entry).isSome = true) :
    let given := givenAfter host provider (stream.take i) event
    let past := eventsOf host call (stream.take i)
    given = givenAfter host provider ((stream.take i).filter (ofCall host call)) event ∧
    (∀ text, entry.event = .delta text → ∃ itemId callId arguments,
      given = [.functionCallArgumentsDelta itemId callId text arguments] ∧
        (itemId = "" ∨ itemId = call.id) ∧ (callId = "" ∨ callId = call.callId)) ∧
    ∀ name arguments status, entry.event = .done name arguments status →
      (∀ itemId index type item function,
        .outputItemDone itemId index type item function ∈ given →
          itemId = call.id ∧ ∃ finished : FunctionCallItem, function = some finished ∧
            item = finished.toResponseItem ∧ finished.id = call.id ∧ finished.callId = call.callId ∧
            finished.name = call.name ∧ finished.arguments = arguments.getD (texts past)) ∧
      (entry.itemId = call.id → entry.callId = call.callId → name ≠ "" →
        (arguments ≠ none ∨ ∃ other ∈ kept call past, other.rank = 1 ∨ other.rank = 2) →
        ∃ index item finished, given = [.outputItemDone call.id index "function_call" item (some finished)]) := by
  intro given past
  obtain ⟨naming, named⟩ := Option.isSome_iff_exists.mp names
  have before := streams.sublist (List.take_sublist i stream)
  have all : ∀ entry ∈ past, EventOf call entry := before.eventsOf apart mem
  have allNamed : ∀ entry ∈ past, (call.naming entry).isSome = true := fun entry mem => (all entry mem).naming
  have eventOf := streams.eventOf apart mem (List.mem_of_getElem? here) read names
  have whole : given = _ := ingest_after apart provider before mem read named
  have alone : givenAfter host provider ((stream.take i).filter (ofCall host call)) event = _ :=
    ingest_after apart provider (before.sublist List.filter_sublist) mem read named
  rw [eventsOf_filter] at alone
  refine ⟨whole.trans alone.symm, ?_, ?_⟩
  · intro text isDelta
    obtain ⟨id, callId, -⟩ := ((stateAfter_of all).next eventOf naming).2
    obtain ⟨item, call, -⟩ := naming_eq_some named
    rw [whole, Providers.given, isDelta]
    refine ⟨_, _, _, rfl, ?_, ?_⟩
    · simp only [Normalizer.firstText]
      grind
    · simp only [Normalizer.firstText]
      grind
  · intro name arguments status isDone
    obtain ⟨ordered, unharmed⟩ := intact i event call entry name arguments status here mem read names isDone
    rw [whole, Providers.given, isDone]
    simp only
    by_cases complete : Normalizer.missingParts
        ((stateAfter call past).next naming entry.change).2 = []
    · obtain ⟨id, callId, ownName, argumentsAre⟩ :=
        given_done all ordered eventOf named isDone unharmed complete
      rw [if_pos complete]
      constructor
      · intro itemId index type item function isGiven
        cases List.mem_singleton.mp isGiven
        exact ⟨id, _, rfl, rfl, id, callId, ownName, argumentsAre⟩
      · intro _ _ _ _
        exact ⟨_, _, _, by rw [id]⟩
    · rw [if_neg complete]
      constructor
      · intro itemId index type item function isGiven
        cases List.mem_singleton.mp isGiven
      · intro itemId callId notEmpty seen
        refine absurd ?_ complete
        have both : naming = .both := by
          rw [Call.naming, if_pos ⟨itemId, callId⟩] at named
          exact (Option.some.inj named).symm
        have ids := apart.named call mem
        obtain ⟨itemStripped, callStripped, nameStripped⟩ := readEntry_stripped read
        rw [both, bucket_of_both allNamed, missingParts_eq_nil, change_id, change_callId]
        refine ⟨?_, ?_, ?_, ?_⟩
        · rw [if_neg (itemId ▸ ids.1), itemStripped, itemId]
          exact ids.1
        · rw [if_neg (callId ▸ ids.2), callStripped, callId]
          exact ids.2
        · rw [change_name_of_done isDone notEmpty, nameStripped name arguments status isDone]
          exact notEmpty
        · rw [change_argumentsSeen_of_done isDone, Bool.or_eq_true]
          rcases seen with some | recordedSome
          · exact .inl (Option.isSome_iff_ne_none.mpr some)
          · exact .inr (recorded_seen recordedSome)

end

/-! ### Two calls -/

section

/-- A delta under the identifiers that are not empty. -/
def deltaEvent (itemId callId text : String) : Json :=
  .obj [("type", .str "response.function_call_arguments.delta"), ("item_id", .str itemId),
    ("call_id", .str callId), ("delta", .str text)]

/-- The final item of a call. -/
def finalEvent (call : Call) (arguments : Option String) : Json :=
  .obj [("type", .str "response.output_item.done"), ("output_index", .nat 0),
    ("item", .obj ([("type", .str "function_call"), ("id", .str call.id), ("call_id", .str call.callId),
      ("name", .str call.name)] ++ (arguments.map fun text => ("arguments", Json.str text)).toList))]

def readCall : Call := ⟨"fc_1", "call_1", "read"⟩

def writeCall : Call := ⟨"fc_2", "call_2", "write"⟩

/-- Two calls whose events are interleaved. -/
def twoCalls : List Json :=
  [deltaEvent "fc_1" "" "[]", deltaEvent "" "call_2" "1", finalEvent readCall none,
    finalEvent writeCall (some "12")]

theorem apart_twoCalls : Apart {readCall, writeCall} where
  named := by
    intro call mem
    rcases mem with rfl | rfl <;> decide
  ids := by
    intro call mem other otherMem same
    rcases mem with rfl | rfl <;> rcases otherMem with rfl | rfl
    · rfl
    · exact absurd same (by decide)
    · exact absurd same (by decide)
    · rfl
  callIds := by
    intro call mem other otherMem same
    rcases mem with rfl | rfl <;> rcases otherMem with rfl | rfl
    · rfl
    · exact absurd same (by decide)
    · exact absurd same (by decide)
    · rfl
  crossed := by
    intro call mem other otherMem _
    rcases mem with rfl | rfl <;> rcases otherMem with rfl | rfl <;> decide

theorem reads_twoCalls :
    readEntry plainBuiltins (deltaEvent "fc_1" "" "[]") = some ⟨"fc_1", "", .delta "[]"⟩ ∧
    readEntry plainBuiltins (deltaEvent "" "call_2" "1") = some ⟨"", "call_2", .delta "1"⟩ ∧
    readEntry plainBuiltins (finalEvent readCall none) =
      some ⟨"fc_1", "call_1", .done "read" none ""⟩ ∧
    readEntry plainBuiltins (finalEvent writeCall (some "12")) =
      some ⟨"fc_2", "call_2", .done "write" (some "12") ""⟩ := by decide +kernel

theorem eventOf_done (call : Call) (arguments : Option String) :
    EventOf call ⟨call.id, call.callId, .done call.name arguments ""⟩ := by
  constructor
  · rw [Call.naming, if_pos ⟨rfl, rfl⟩]
    rfl
  · intro name arguments' status same
    rcases same with added | done
    · cases added
    · cases done
      exact .inr rfl

theorem streams_twoCalls : Streams plainBuiltins {readCall, writeCall} twoCalls := by
  obtain ⟨first, second, third, fourth⟩ := reads_twoCalls
  intro event mem entry read
  simp only [twoCalls, List.mem_cons, List.not_mem_nil, or_false] at mem
  rcases mem with rfl | rfl | rfl | rfl
  · rw [first] at read
    cases read
    exact ⟨readCall, .inl rfl, by decide, by simp⟩
  · rw [second] at read
    cases read
    exact ⟨writeCall, .inr rfl, by decide, by simp⟩
  · rw [third] at read
    cases read
    exact ⟨readCall, .inl rfl, eventOf_done readCall none⟩
  · rw [fourth] at read
    cases read
    exact ⟨writeCall, .inr rfl, eventOf_done writeCall (some "12")⟩

theorem allIntact_twoCalls : AllIntact plainBuiltins {readCall, writeCall} twoCalls := by
  obtain ⟨first, second, third, fourth⟩ := reads_twoCalls
  have one : Ordered [⟨"fc_1", "", .delta "[]"⟩] := ⟨by decide, List.pairwise_singleton _ _⟩
  intro i event call entry name arguments status here mem read names isDone
  have inside : i < 4 := (List.getElem?_eq_some_iff.mp here).1
  obtain rfl | rfl | rfl | rfl : i = 0 ∨ i = 1 ∨ i = 2 ∨ i = 3 := by omega
  · cases here
    rw [first] at read
    cases read
    cases isDone
  · cases here
    rw [second] at read
    cases read
    cases isDone
  · cases here
    rw [third] at read
    cases read
    cases isDone
    rcases mem with rfl | rfl
    · have past : eventsOf plainBuiltins readCall (twoCalls.take 2) = [⟨"fc_1", "", .delta "[]"⟩] := by
        simp only [eventsOf, twoCalls, List.take_succ_cons, List.take_zero, List.filterMap_cons, first,
          second, List.filterMap_nil]
        decide
      rw [past]
      refine ⟨one, ?_, ?_, ?_⟩
      · simp
      · simp
      · exact fun _ => .inr (by decide)
    · exact absurd names (by decide)
  · cases here
    rw [fourth] at read
    cases read
    cases isDone
    rcases mem with rfl | rfl
    · exact absurd names (by decide)
    · have past : eventsOf plainBuiltins writeCall (twoCalls.take 3) = [⟨"", "call_2", .delta "1"⟩] := by
        simp only [eventsOf, twoCalls, List.take_succ_cons, List.take_zero, List.filterMap_cons, first,
          second, third, List.filterMap_nil]
        decide
      rw [past]
      exact ⟨⟨by decide, List.pairwise_singleton _ _⟩, nofun, nofun, nofun⟩

/-- The final item of the first call has no arguments; its delta is what is given. -/
theorem functionCalls_twoCalls :
    ∃ index item finished, givenAfter plainBuiltins "openai_responses" (twoCalls.take 2)
        (finalEvent readCall none) =
      [.outputItemDone "fc_1" index "function_call" item (some finished)] := by
  obtain ⟨first, second, third, -⟩ := reads_twoCalls
  have exact := functionCalls_exact plainBuiltins "openai_responses" _ apart_twoCalls _ streams_twoCalls
    allIntact_twoCalls 2 _ rfl readCall (.inl rfl) _ third (by decide)
  obtain ⟨-, -, done⟩ := exact
  refine (done "read" none "" rfl).2 rfl rfl (by decide) (.inr ?_)
  refine ⟨⟨"fc_1", "", .delta "[]"⟩, ?_, .inl rfl⟩
  simp only [eventsOf, twoCalls, List.take_succ_cons, List.take_zero, List.filterMap_cons, first, second,
    List.filterMap_nil]
  decide

/-- One call, named by its item, by the call and by both. -/
def oneCall : List Json := [deltaEvent "fc_1" "" "\x7b", deltaEvent "" "call_1" "\x7d"]

/-- The delta that named the call by its call identifier is missing in the finished item. -/
theorem functionCalls_lose_delta :
    readEntry plainBuiltins (deltaEvent "fc_1" "" "\x7b") = some ⟨"fc_1", "", .delta "\x7b"⟩ ∧
    readEntry plainBuiltins (deltaEvent "" "call_1" "\x7d") = some ⟨"", "call_1", .delta "\x7d"⟩ ∧
    readEntry plainBuiltins (finalEvent readCall none) =
      some ⟨"fc_1", "call_1", .done "read" none ""⟩ ∧
    texts (eventsOf plainBuiltins readCall oneCall) = "\x7b\x7d" ∧
    givenAfter plainBuiltins "openai_responses" oneCall (finalEvent readCall none) =
      [.outputItemDone "fc_1" (some 0) "function_call"
        (FunctionCallItem.toResponseItem ⟨"fc_1", "call_1", "read", "\x7b", ""⟩)
        (some ⟨"fc_1", "call_1", "read", "\x7b", ""⟩)] := by decide +kernel

end

end AgentPark.Providers
