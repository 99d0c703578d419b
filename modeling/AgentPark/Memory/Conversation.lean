import AgentPark.Memory.Deletion
import Mathlib.Algebra.GroupWithZero.Nat

/-!
# The conversation that a node's memory shows

A conversation is read from the same files that a turn is deleted from.  Both cut the records into turns, each with
a scan of its own.

`Host` stands for the digests.
-/

namespace AgentPark.Memory

open Lib

def Record.isVoice (r : Record) : Bool := r.role == "voice"

/-- `FINAL_ROLES`. -/
def Record.isFinal (r : Record) : Bool := r.role == "assistant" || r.role == "agent" || r.role == "system"

/-- The digests: of a text, and of the line of a file that a record is in. -/
structure Host where
  sha256 : String → String
  lineDigest : MessagesPath → Nat → String

/-- What is kept of a record; `body` is the record itself unless it has to be read again. -/
structure RecordLocation where
  path : MessagesPath
  record : Record
  digest : String

def RecordLocation.toolCount (location : RecordLocation) : Nat :=
  location.record.parts.countP fun part => part.json.get "type" = some (.str "tool_call")

def RecordLocation.body (location : RecordLocation) : Option Record :=
  if location.record.isUser || location.record.isFinal || location.record.isVoice then some location.record else none

/-- `_locations`. -/
def locations (host : Host) (memory : MemoryFiles) : List RecordLocation :=
  memory.files.flatMap fun file =>
    file.2.zipIdx.map fun entry => ⟨file.1, entry.1, host.lineDigest file.1 entry.2⟩

/-- A turn: the user record and what follows it. -/
structure Turn where
  first : RecordLocation
  rest : List RecordLocation

def Turn.append (turn : Turn) (location : RecordLocation) : Turn := { turn with rest := turn.rest ++ [location] }

/-- `turns[-1].append(location)`. -/
def appendLast : List Turn → RecordLocation → List Turn
  | [], _ => []
  | [turn], location => [turn.append location]
  | turn :: turns, location => turn :: appendLast turns location

/-! ### Reading a conversation -/

/-- What the loop has collected. -/
structure Scan where
  turns : List Turn := []
  preamble : List Record := []
  voiceRecords : List Record := []

def Scan.add (scan : Scan) (location : RecordLocation) : Scan :=
  if location.record.isVoice then { scan with voiceRecords := scan.voiceRecords ++ location.body.toList }
  else if location.record.isUser then { scan with turns := scan.turns ++ [⟨location, []⟩] }
  else if scan.turns ≠ [] then { scan with turns := appendLast scan.turns location }
  else { scan with preamble := scan.preamble ++ location.body.toList }

/-- The loop of `read_conversation`. -/
def scan (locations : List RecordLocation) : Scan := locations.foldl Scan.add {}

/-- The records of a turn before its last answer, and that answer. -/
def Turn.split (turn : Turn) : List RecordLocation × Option RecordLocation :=
  match turn.rest.reverse.dropWhile fun location => !location.record.isFinal with
  | [] => (turn.rest, none)
  | final :: before => (before.reverse, some final)

structure TurnSummary where
  turnId : String
  revision : String
  running : Bool
  itemCount : Nat
  toolCount : Nat
  hasMetadata : Bool

/-- A record as it is shown. -/
structure Shown where
  record : Record
  turnSummary : Option TurnSummary

def Record.plain (record : Record) : Shown := ⟨record, none⟩

def Turn.locations (turn : Turn) : List RecordLocation := turn.first :: turn.rest

def Turn.summary (host : Host) (turn : Turn) (active : Bool) : TurnSummary where
  turnId := turn.first.record.id
  revision := host.sha256 (String.join (turn.locations.map RecordLocation.digest))
  running := active
  itemCount := turn.split.1.length
  toolCount := (turn.split.1.map RecordLocation.toolCount).sum
  hasMetadata := turn.locations.any fun location => location.record.role == "metadata"

/-- `_read_records`: a record whose body is not kept is read again from its place. -/
def readRecords (locations : List RecordLocation) : List Record := locations.map RecordLocation.record

def Turn.messages (host : Host) (turn : Turn) (active : Bool) : List Shown :=
  ⟨turn.first.record, some (turn.summary host active)⟩ ::
    (readRecords turn.split.2.toList).map Record.plain

/-- `{location.record_id: index for index, location in enumerate(locations)}`. -/
def positions (locations : List RecordLocation) : List (String × (RecordLocation × Nat)) :=
  locations.zipIdx.foldl (fun table entry => dictSet table entry.1.record.id entry) []

def position (locations : List RecordLocation) (record : Record) : Nat :=
  (((positions locations).lookup record.id).map Prod.snd).getD 0

/-- `read_conversation`; the error is the `KeyError` of a turn that is not there. -/
def readConversation (host : Host) (memory : MemoryFiles) (running : Bool) (turnId : String) :
    Except String (List Shown) :=
  let places := locations host memory
  let scanned := scan places
  if turnId ≠ "" then
    match scanned.turns.find? fun turn => turn.first.record.id = turnId with
    | some turn => .ok ((readRecords turn.locations).map Record.plain)
    | none => .error turnId
  else
    let output :=
      scanned.preamble.map Record.plain ++
        scanned.turns.zipIdx.flatMap (fun entry =>
          entry.1.messages host (running && entry.2 + 1 == scanned.turns.length)) ++
        scanned.voiceRecords.map Record.plain
    .ok (sortBy (fun shown => position places shown.record) output)

/-! ### What is meant -/

/-- A record belongs to a conversation without a turn: `inTurn` says whether a turn has begun. -/
def shows (inTurn : Bool) (record : Record) (later : List Record) : Bool :=
  record.isUser || record.isVoice ||
    (record.isFinal && (!inTurn || !(later.takeWhile fun record => !record.isUser).any Record.isFinal))

def shownAt (records : List Record) (entry : Record × Nat) : Bool :=
  shows ((records.take entry.2).any Record.isUser) entry.1 (records.drop (entry.2 + 1))

/-- The user records, the last answer of each turn, the voice records and the dialogue in front of the first turn,
in the order of the files. -/
def conversationRecords (records : List Record) : List Record := (records.zipIdx.filter (shownAt records)).map Prod.fst

/-- The records that a deletion took out. -/
def removedRecords (deleted : List (MessagesPath × List Record) × List Snapshot) : List Record :=
  deleted.2.flatMap Snapshot.records

/-- A memory in which no two records have one id. -/
structure NodeMemory extends MemoryFiles where
  uniqueIds : (toMemoryFiles.records.map Record.id).Nodup

/-- What is deleted as a turn is what is read as that turn, and a conversation shows what it should. -/
structure ViewsAgree (host : Host) (memory : NodeMemory) (running : Bool) : Prop where
  turn : ∀ user ∈ memory.records, user.isUser →
    (readConversation host memory.toMemoryFiles running user.id).map (·.map Shown.record) =
      .ok (removedRecords (deleteNodeMemoryTurn memory.toMemoryFiles user.id))
  whole : (readConversation host memory.toMemoryFiles running "").map (·.map Shown.record) =
    .ok (conversationRecords memory.records)

/-! ### Deleting a turn -/

theorem removedRecords_takeOut (marked : List (MessagesPath × List (Record × Bool))) :
    removedRecords (takeOut marked) = marked.flatMap fun file => gone file.2 := by
  induction marked with
  | nil => rfl
  | cons file marked ih =>
    rw [removedRecords, takeOut] at ih ⊢
    rw [List.filterMap_cons, List.flatMap_cons]
    split_ifs with nothing
    · rw [nothing, List.nil_append, ← ih]
    · rw [List.flatMap_cons, ← ih]

theorem gone_map {entries : List (Record × Nat)} (deleted : Nat → Record → Bool) :
    gone (entries.map fun entry => (entry.1, deleted entry.2 entry.1)) =
      (entries.filter fun entry => deleted entry.2 entry.1).map Prod.fst := by
  rw [gone, List.filter_map, List.map_map]
  rfl

theorem removedRecords_markFiles (deleted : Nat → Record → Bool) (offset : Nat)
    (files : List (MessagesPath × List Record)) :
    removedRecords (takeOut (markFiles deleted offset files)) =
      (((files.flatMap Prod.snd).zipIdx offset).filter fun entry => deleted entry.2 entry.1).map Prod.fst := by
  rw [removedRecords_takeOut]
  induction files generalizing offset with
  | nil => rfl
  | cons file files ih =>
    rw [markFiles, List.flatMap_cons, gone_map, ih, List.flatMap_cons, List.zipIdx_append, List.filter_append,
      List.map_append, Nat.add_comm]

theorem filter_inTurn (front turn back : List Record) :
    (((front ++ (turn ++ back)).zipIdx).filter fun entry =>
        inTurn (front.length, front.length + turn.length) entry.2 entry.1).map Prod.fst =
      turn.filter fun record => !record.isVoice := by
  have notFront : (front.zipIdx.filter fun entry =>
      inTurn (front.length, front.length + turn.length) entry.2 entry.1) = [] := by
    refine List.filter_eq_nil_iff.mpr fun entry mem inside => ?_
    have place := List.snd_lt_of_mem_zipIdx mem
    have bounds := of_decide_eq_true inside
    omega
  have notBack : ((back.zipIdx (front.length + turn.length)).filter fun entry =>
      inTurn (front.length, front.length + turn.length) entry.2 entry.1) = [] := by
    refine List.filter_eq_nil_iff.mpr fun entry mem inside => ?_
    have place := List.le_snd_of_mem_zipIdx mem
    have bounds := of_decide_eq_true inside
    omega
  have onTurn : ((turn.zipIdx front.length).filter fun entry =>
      inTurn (front.length, front.length + turn.length) entry.2 entry.1) =
      (turn.zipIdx front.length).filter ((fun record => !record.isVoice) ∘ Prod.fst) := by
    refine List.filter_congr fun entry mem => ?_
    have low := List.le_snd_of_mem_zipIdx mem
    have high := List.snd_lt_add_of_mem_zipIdx mem
    rw [inTurn, Function.comp_apply, Record.isVoice, Bool.eq_iff_iff, decide_eq_true_eq, Bool.not_eq_true', beq_eq_false_iff_ne]
    dsimp only
    constructor
    · exact fun inside => inside.2.2
    · exact fun other => ⟨low, by omega, other⟩
  rw [List.zipIdx_append, List.zipIdx_append, List.filter_append, List.filter_append, Nat.zero_add, notFront, notBack,
    onTurn, List.nil_append, List.append_nil, ← List.filter_map, List.zipIdx_map_fst]

/-- The records of a turn behind its user record. -/
def turnRest (later : List Record) : List Record :=
  (later.takeWhile fun record => !record.isUser).filter fun record => !record.isVoice

theorem isVoice_of_isUser {record : Record} (isUser : record.isUser = true) : record.isVoice = false := by
  rw [Record.isUser, Bool.or_eq_true, beq_iff_eq, beq_iff_eq] at isUser
  rcases isUser with isUser | isUser
  · rw [Record.isVoice, isUser]
    rfl
  · rw [Record.isVoice, isUser]
    rfl

theorem removedRecords_deleteNodeMemoryTurn {memory : MemoryFiles} {front later : List Record} {first : Record}
    {target : String} (records : memory.records = front ++ first :: later) (isFirst : first.key = pyStrip target)
    (notFront : ∀ record ∈ front, record.key ≠ first.key) (notBlank : first.key ≠ "") :
    removedRecords (deleteNodeMemoryTurn memory target) = if first.isUser then first :: turnRest later else [] := by
  have bounds : turnBounds memory.records first.key =
      if first.isUser then some (front.length, front.length + 1 + later.findIdx Record.isUser) else none := by
    have start : (front ++ first :: later).findIdx? (fun record => record.key = first.key) = some front.length := by
      have none : front.findIdx? (fun record => record.key = first.key) = none :=
        List.findIdx?_eq_none_iff.mpr fun record mem => decide_eq_false (notFront record mem)
      rw [List.findIdx?_append, none, Option.none_or, List.findIdx?_cons, if_pos (decide_eq_true rfl), Option.map_some,
        Nat.zero_add]
    rw [turnBounds, records, start]
    dsimp only
    rw [List.drop_left]
  rw [deleteNodeMemoryTurn, ← isFirst, if_neg notBlank, bounds]
  split_ifs with isUser
  · have lengths : (later.takeWhile fun record => !record.isUser).length = later.findIdx Record.isUser := by
      rw [List.takeWhile_eq_take_findIdx_not, List.length_take]
      simp only [Bool.not_not]
      exact Nat.min_eq_left List.findIdx_le_length
    have parts : memory.files.flatMap Prod.snd =
        front ++ ((first :: later.takeWhile fun record => !record.isUser) ++
          later.dropWhile fun record => !record.isUser) := by
      rw [List.cons_append, List.takeWhile_append_dropWhile]
      exact records
    have taken := filter_inTurn front (first :: later.takeWhile fun record => !record.isUser)
      (later.dropWhile fun record => !record.isUser)
    rw [List.length_cons, lengths, ← parts] at taken
    dsimp only
    rw [removedRecords_markFiles, Nat.add_assoc, Nat.add_comm 1, taken,
      List.filter_cons_of_pos (by rw [isVoice_of_isUser isUser, Bool.not_false]), turnRest]
  · rfl

/-! ### Cutting into turns -/

/-- The records in front of the first turn and the turns, without the voice records. -/
def cut : List RecordLocation → List RecordLocation × List Turn
  | [] => ([], [])
  | location :: later =>
    if location.record.isVoice then cut later
    else if location.record.isUser then ([], ⟨location, (cut later).1⟩ :: (cut later).2)
    else (location :: (cut later).1, (cut later).2)

theorem appendLast_concat (turns : List Turn) (turn : Turn) (location : RecordLocation) :
    appendLast (turns ++ [turn]) location = turns ++ [turn.append location] := by
  induction turns with
  | nil => rfl
  | cons first turns ih =>
    cases turns with
    | nil => rfl
    | cons second turns =>
      exact congrArg (first :: ·) ih

theorem body_of_isFinal {location : RecordLocation} (notVoice : ¬location.record.isVoice = true)
    (notUser : ¬location.record.isUser = true) : location.body.toList = [location.record].filter Record.isFinal := by
  rw [RecordLocation.body, List.filter_singleton]
  simp only [notVoice, notUser, Bool.false_or, Bool.or_false]
  cases location.record.isFinal <;> rfl

theorem body_of_isVoice {location : RecordLocation} (isVoice : location.record.isVoice = true) :
    location.body = some location.record := by
  rw [RecordLocation.body, isVoice, Bool.or_true, if_pos rfl]

theorem readRecords_cons (location : RecordLocation) (places : List RecordLocation) :
    readRecords (location :: places) = location.record :: readRecords places := rfl

theorem scan_in_turn (places : List RecordLocation) (turns : List Turn) (turn : Turn) (preamble voice : List Record) :
    places.foldl Scan.add ⟨turns ++ [turn], preamble, voice⟩ =
      ⟨turns ++ [⟨turn.first, turn.rest ++ (cut places).1⟩] ++ (cut places).2, preamble,
        voice ++ (readRecords places).filter Record.isVoice⟩ := by
  induction places generalizing turns turn voice with
  | nil => simp only [cut, readRecords, List.map_nil, List.filter_nil, List.append_nil, List.foldl_nil]
  | cons location places ih =>
    rw [List.foldl_cons, readRecords_cons, cut]
    by_cases isVoice : location.record.isVoice = true
    · rw [Scan.add, if_pos isVoice, if_pos isVoice, List.filter_cons_of_pos isVoice, ih, body_of_isVoice isVoice,
        Option.toList_some, List.append_assoc voice, List.singleton_append]
    by_cases isUser : location.record.isUser = true
    · rw [Scan.add, if_neg isVoice, if_neg isVoice, if_pos isUser, if_pos isUser, List.filter_cons_of_neg isVoice, ih,
        List.nil_append, List.append_nil, List.append_assoc _ _ (cut places).2, List.singleton_append]
    · rw [Scan.add, if_neg isVoice, if_neg isVoice, if_neg isUser, if_neg isUser, List.filter_cons_of_neg isVoice,
        if_pos (List.append_ne_nil_of_right_ne_nil _ (List.cons_ne_nil _ _)), appendLast_concat, ih, Turn.append,
        List.append_assoc turn.rest, List.singleton_append]

theorem scan_in_front (places : List RecordLocation) (preamble voice : List Record) :
    places.foldl Scan.add ⟨[], preamble, voice⟩ =
      ⟨(cut places).2, preamble ++ (readRecords (cut places).1).filter Record.isFinal,
        voice ++ (readRecords places).filter Record.isVoice⟩ := by
  induction places generalizing preamble voice with
  | nil => simp only [cut, readRecords, List.map_nil, List.filter_nil, List.append_nil, List.foldl_nil]
  | cons location places ih =>
    rw [List.foldl_cons, readRecords_cons, cut]
    by_cases isVoice : location.record.isVoice = true
    · rw [Scan.add, if_pos isVoice, if_pos isVoice, List.filter_cons_of_pos isVoice, ih, body_of_isVoice isVoice,
        Option.toList_some, List.append_assoc, List.singleton_append]
    by_cases isUser : location.record.isUser = true
    · have inTurn := scan_in_turn places [] ⟨location, []⟩ preamble voice
      rw [Scan.add, if_neg isVoice, if_neg isVoice, if_pos isUser, if_pos isUser, List.filter_cons_of_neg isVoice,
        inTurn]
      simp only [readRecords, List.nil_append, List.map_nil, List.filter_nil, List.append_nil, List.singleton_append]
    · rw [Scan.add, if_neg isVoice, if_neg isVoice, if_neg isUser, if_neg isUser, List.filter_cons_of_neg isVoice,
        if_neg (not_not.mpr rfl), ih, body_of_isFinal isVoice isUser, List.append_assoc, readRecords_cons,
        ← List.filter_append, List.singleton_append]

theorem scan_eq (places : List RecordLocation) :
    scan places = ⟨(cut places).2, (readRecords (cut places).1).filter Record.isFinal,
      (readRecords places).filter Record.isVoice⟩ := by
  rw [scan, scan_in_front, List.nil_append, List.nil_append]

/-! ### Reading a turn -/

theorem cut_append_user {location : RecordLocation} (isUser : location.record.isUser = true)
    (front later : List RecordLocation) :
    cut (front ++ location :: later) =
      ((cut front).1, (cut front).2 ++ ⟨location, (cut later).1⟩ :: (cut later).2) := by
  induction front with
  | nil =>
    have notVoice : ¬location.record.isVoice = true := by
      rw [isVoice_of_isUser isUser]
      exact Bool.false_ne_true
    rw [List.nil_append, cut.eq_2, if_neg notVoice, if_pos isUser]
    rfl
  | cons first front ih =>
    rw [List.cons_append, cut, cut, ih]
    split_ifs <;> rfl

theorem first_mem_of_cut {places : List RecordLocation} {turn : Turn} (mem : turn ∈ (cut places).2) :
    turn.first ∈ places := by
  induction places with
  | nil => cases mem
  | cons location places ih =>
    rw [cut] at mem
    split_ifs at mem
    · exact List.mem_cons_of_mem _ (ih mem)
    · rcases List.mem_cons.mp mem with rfl | mem
      · exact List.mem_cons_self
      · exact List.mem_cons_of_mem _ (ih mem)
    · exact List.mem_cons_of_mem _ (ih mem)

theorem readRecords_cut (places : List RecordLocation) : readRecords (cut places).1 = turnRest (readRecords places) := by
  induction places with
  | nil => rfl
  | cons location places ih =>
    rw [readRecords_cons, turnRest, List.takeWhile_cons, cut]
    by_cases isUser : location.record.isUser = true
    · have notVoice := isVoice_of_isUser isUser
      simp only [notVoice, isUser, Bool.not_true, Bool.false_eq_true, if_false, if_true]
      rfl
    · by_cases isVoice : location.record.isVoice = true
      · simp only [isVoice, isUser, Bool.not_false, if_true]
        rw [ih, List.filter_cons_of_neg (by rw [isVoice, Bool.not_true]; exact Bool.false_ne_true), turnRest]
      · simp only [isVoice, isUser, Bool.not_false, if_true, if_false, Bool.false_eq_true]
        rw [readRecords_cons, ih, List.filter_cons_of_pos (by simp only [isVoice, Bool.not_false]), turnRest]

theorem readRecords_locations (host : Host) (memory : MemoryFiles) :
    readRecords (locations host memory) = memory.records := by
  rw [readRecords, locations, MemoryFiles.records, List.map_flatMap]
  refine List.flatMap_congr fun file _ => ?_
  rw [List.map_map]
  exact List.zipIdx_map_fst 0 file.2

theorem map_plain (records : List Record) : (records.map Record.plain).map Shown.record = records := by
  rw [List.map_map]
  exact List.map_id records

theorem readConversation_turn (host : Host) {memory : MemoryFiles} (running : Bool) {front later : List Record}
    {user : Record} (records : memory.records = front ++ user :: later) (isUser : user.isUser = true)
    (notFront : ∀ record ∈ front, record.id ≠ user.id) :
    (readConversation host memory running user.id).map (·.map Shown.record) = .ok (user :: turnRest later) := by
  have places := readRecords_locations host memory
  rw [records] at places
  obtain ⟨frontPlaces, rest, split, isFront, isRest⟩ := List.map_eq_append_iff.mp places
  obtain ⟨location, laterPlaces, rfl, rfl, isLater⟩ := List.map_eq_cons_iff.mp isRest
  have found : (cut (locations host memory)).2.find? (fun turn => turn.first.record.id = location.record.id) =
      some ⟨location, (cut laterPlaces).1⟩ := by
    rw [split, cut_append_user isUser, List.find?_append]
    have none : (cut frontPlaces).2.find? (fun turn => turn.first.record.id = location.record.id) = none := by
      refine List.find?_eq_none.mpr fun turn mem same => ?_
      have inFront : turn.first.record ∈ front := isFront ▸ List.mem_map_of_mem (first_mem_of_cut mem)
      exact notFront _ inFront (of_decide_eq_true same)
    rw [none, Option.none_or]
    exact List.find?_cons_of_pos (decide_eq_true rfl)
  rw [readConversation, if_pos location.record.id_ne, scan_eq, found]
  rw [Except.map, map_plain, Turn.locations, readRecords_cons, readRecords_cut]
  rw [readRecords, isLater]

/-! ### Reading a whole conversation -/

/-- The records that are shown, one after the other. -/
def shownFrom (inTurn : Bool) : List Record → List Record
  | [] => []
  | record :: later =>
    if shows inTurn record later then record :: shownFrom (inTurn || record.isUser) later
    else shownFrom (inTurn || record.isUser) later

theorem filter_shownAt (front later : List Record) :
    ((later.zipIdx front.length).filter (shownAt (front ++ later))).map Prod.fst =
      shownFrom (front.any Record.isUser) later := by
  induction later generalizing front with
  | nil => rfl
  | cons record later ih =>
    have next := ih (front ++ [record])
    rw [List.length_append, List.length_singleton, List.append_assoc, List.singleton_append, List.any_append,
      List.any_cons, List.any_nil, Bool.or_false] at next
    have here : shownAt (front ++ record :: later) (record, front.length) =
        shows (front.any Record.isUser) record later := by
      have behind : (front ++ record :: later).drop (front.length + 1) = later := by
        rw [← List.drop_drop, List.drop_left, List.drop_one, List.tail_cons]
      rw [shownAt, List.take_left, behind]
    rw [List.zipIdx_cons, List.filter_cons, here, shownFrom]
    split_ifs
    · rw [List.map_cons, next]
    · exact next

/-- The last answer in a part of a turn. -/
def answer (rest : List RecordLocation) : Option RecordLocation :=
  rest.reverse.find? fun location => location.record.isFinal

theorem split_snd (turn : Turn) : turn.split.2 = answer turn.rest := by
  rw [answer, List.find?_eq_head?_dropWhile_not, Turn.split]
  split
  · next nothing => rw [nothing]; rfl
  · next final before isFinal => rw [isFinal]; rfl

theorem answer_cons (location : RecordLocation) (rest : List RecordLocation) :
    answer (location :: rest) = (answer rest).or (if location.record.isFinal then some location else none) := by
  rw [answer, List.reverse_cons, List.find?_append, answer, List.find?_singleton]

theorem answer_eq_none_iff (rest : List RecordLocation) :
    answer rest = none ↔ rest.any (fun location => location.record.isFinal) = false := by
  rw [answer, List.find?_eq_none, List.any_eq_false]
  simp only [List.mem_reverse]

/-- What is shown of the records up to the next turn. -/
def leading (inTurn : Bool) (rest : List RecordLocation) : List Record :=
  if inTurn then readRecords (answer rest).toList else (readRecords rest).filter Record.isFinal

theorem leading_cons (inTurn : Bool) (location : RecordLocation) (rest : List RecordLocation) :
    leading inTurn (location :: rest) =
      if location.record.isFinal && (!inTurn || !rest.any fun location => location.record.isFinal) then
        location.record :: leading inTurn rest
      else leading inTurn rest := by
  cases inTurn with
  | false =>
    rw [leading, leading, readRecords_cons, List.filter_cons]
    simp only [Bool.not_false, Bool.true_or, Bool.and_true, Bool.false_eq_true, if_false]
  | true =>
    rw [leading, leading, if_pos rfl, if_pos rfl, answer_cons]
    cases isAnswer : answer rest with
    | none =>
      rw [(answer_eq_none_iff rest).mp isAnswer, Option.none_or]
      cases location.record.isFinal <;> rfl
    | some final =>
      have found : rest.any (fun location => location.record.isFinal) = true := by
        by_contra nothing
        rw [(answer_eq_none_iff rest).mpr (Bool.eq_false_iff.mpr nothing)] at isAnswer
        cases isAnswer
      rw [found, Option.some_or]
      simp only [Bool.not_true, Bool.or_self, Bool.and_false, Bool.false_eq_true, if_false]

/-- What is shown of a turn. -/
def Turn.shown (turn : Turn) : List Record := turn.first.record :: leading true turn.rest

theorem any_isFinal_takeWhile (places : List RecordLocation) :
    ((readRecords places).takeWhile fun record => !record.isUser).any Record.isFinal =
      (cut places).1.any fun location => location.record.isFinal := by
  have notVoice : ∀ record : Record, (!record.isVoice && record.isFinal) = record.isFinal := by
    intro record
    cases isFinal : record.isFinal with
    | false => rw [Bool.and_false]
    | true =>
      rw [Record.isFinal, Bool.or_eq_true, Bool.or_eq_true, beq_iff_eq, beq_iff_eq, beq_iff_eq] at isFinal
      rcases isFinal with (isFinal | isFinal) | isFinal
      all_goals
        rw [Record.isVoice, isFinal]
        rfl
  have records := congrArg (fun records => records.any Record.isFinal) (readRecords_cut places)
  simp only [readRecords, List.any_map, turnRest, List.any_filter, notVoice] at records
  exact records.symm

theorem shownFrom_perm (inTurn : Bool) (places : List RecordLocation) :
    (leading inTurn (cut places).1 ++ (cut places).2.flatMap Turn.shown ++
      (readRecords places).filter Record.isVoice).Perm (shownFrom inTurn (readRecords places)) := by
  induction places generalizing inTurn with
  | nil => cases inTurn <;> rfl
  | cons location places ih =>
    rw [readRecords_cons, shownFrom, cut]
    by_cases isUser : location.record.isUser = true
    · have notVoice : ¬location.record.isVoice = true := by
        rw [isVoice_of_isUser isUser]
        exact Bool.false_ne_true
      have isShown : shows inTurn location.record (readRecords places) = true := by
        rw [shows, isUser, Bool.true_or, Bool.true_or]
      have none : leading inTurn [] = [] := by cases inTurn <;> rfl
      rw [if_pos isShown, if_neg notVoice, if_pos isUser, List.filter_cons_of_neg notVoice, isUser, Bool.or_true, none,
        List.nil_append, List.flatMap_cons, Turn.shown]
      exact (ih true).cons _
    rw [Bool.eq_false_iff.mpr isUser, Bool.or_false]
    by_cases isVoice : location.record.isVoice = true
    · have isShown : shows inTurn location.record (readRecords places) = true := by
        rw [shows, isVoice, Bool.or_true, Bool.true_or]
      rw [if_pos isShown, if_pos isVoice, List.filter_cons_of_pos isVoice]
      exact List.perm_middle.trans ((ih inTurn).cons _)
    · have isShown : shows inTurn location.record (readRecords places) =
          (location.record.isFinal && (!inTurn || !(cut places).1.any fun location => location.record.isFinal)) := by
        rw [shows, any_isFinal_takeWhile, Bool.eq_false_iff.mpr isUser, Bool.eq_false_iff.mpr isVoice, Bool.or_self,
          Bool.false_or]
      rw [isShown, if_neg isVoice, List.filter_cons_of_neg isVoice, if_neg Bool.false_ne_true, leading_cons]
      split_ifs
      · exact (ih inTurn).cons _
      · exact ih inTurn

/-! ### The order of the files -/

theorem position_eq {places : List RecordLocation} (unique : ((readRecords places).map Record.id).Nodup)
    {entry : RecordLocation × Nat} (mem : entry ∈ places.zipIdx) : position places entry.1.record = entry.2 := by
  have distinct : (places.zipIdx.map fun entry => entry.1.record.id).Nodup := by
    have ids : (places.zipIdx.map fun entry => entry.1.record.id) = (readRecords places).map Record.id := by
      rw [readRecords, List.map_map]
      nth_rewrite 2 [← List.zipIdx_map_fst 0 places]
      rw [List.map_map]
      rfl
    rw [ids]
    exact unique
  rw [position, positions, lookup_foldl_dictSet_of_mem (fun entry => entry.1.record.id) distinct mem]
  rfl

theorem increasing_zipIdx {places : List RecordLocation} (unique : ((readRecords places).map Record.id).Nodup) :
    (readRecords places).zipIdx.Pairwise fun a b => position places a.1 < position places b.1 := by
  have ordered : places.zipIdx.Pairwise fun a b => a.2 < b.2 := by
    refine List.pairwise_map.mp ?_
    rw [List.zipIdx_map_snd]
    exact List.pairwise_lt_range'
  rw [readRecords, List.zipIdx_map, List.pairwise_map]
  refine ordered.imp_of_mem fun {a b} inA inB less => ?_
  rw [Prod.map_fst, Prod.map_fst, position_eq unique inA, position_eq unique inB]
  exact less

theorem record_messages (host : Host) (turn : Turn) (active : Bool) :
    (turn.messages host active).map Shown.record = turn.shown := by
  rw [Turn.messages, List.map_cons, map_plain, split_snd]
  rfl

theorem record_turns (host : Host) (turns : List Turn) (active : Nat → Bool) :
    (turns.zipIdx.flatMap fun entry => entry.1.messages host (active entry.2)).map Shown.record =
      turns.flatMap Turn.shown := by
  rw [List.map_flatMap]
  simp only [record_messages]
  nth_rewrite 2 [← List.zipIdx_map_fst 0 turns]
  rw [List.flatMap_map]

theorem readConversation_whole (host : Host) (memory : NodeMemory) (running : Bool) :
    (readConversation host memory.toMemoryFiles running "").map (·.map Shown.record) =
      .ok (conversationRecords memory.records) := by
  have places := readRecords_locations host memory.toMemoryFiles
  have unique : ((readRecords (locations host memory.toMemoryFiles)).map Record.id).Nodup := by
    rw [places]
    exact memory.uniqueIds
  rw [readConversation, if_neg (not_not.mpr rfl), scan_eq]
  refine congrArg Except.ok (map_sortBy_of_perm (position (locations host memory.toMemoryFiles)) Shown.record ?_ ?_)
  · have isShown : conversationRecords memory.records =
        shownFrom false (readRecords (locations host memory.toMemoryFiles)) := by
      rw [places]
      exact filter_shownAt [] memory.records
    rw [List.map_append, List.map_append, map_plain, map_plain,
      record_turns host _ fun index => running && index + 1 == (cut (locations host memory.toMemoryFiles)).2.length,
      isShown]
    exact shownFrom_perm false _
  · rw [conversationRecords, List.pairwise_map, ← places]
    exact (increasing_zipIdx unique).filter _

/-! ### Both views -/

/-- A user record is found by its id: the id is not blank and no earlier record has it, space around it left out. -/
def FoundById (records : List Record) : Prop :=
  ∀ front user later, records = front ++ user :: later → user.isUser →
    user.key ≠ "" ∧ ∀ earlier ∈ front, earlier.key ≠ user.key

/-- The turns that are read are those that are deleted exactly when each user record is found by its id. -/
theorem views_agree_iff (host : Host) (memory : NodeMemory) (running : Bool) :
    ViewsAgree host memory running ↔ FoundById memory.records := by
  have apart : ∀ {front later : List Record} {record : Record}, memory.records = front ++ record :: later →
      ∀ earlier ∈ front, earlier.id ≠ record.id := by
    intro front later record records earlier mem same
    have unique := memory.uniqueIds
    rw [records, List.map_append, List.map_cons] at unique
    exact (List.nodup_append.mp unique).2.2 _ (List.mem_map_of_mem mem) _ List.mem_cons_self same
  constructor
  · intro agree front user later records isUser
    have read := readConversation_turn host running records isUser (apart records)
    have inRecords : user ∈ memory.records := by
      rw [records]
      exact List.mem_append_right _ List.mem_cons_self
    rw [agree.turn user inRecords isUser] at read
    have removed := Except.ok.inj read
    have notBlank : user.key ≠ "" := by
      intro blank
      have target : pyStrip user.id = "" := blank
      rw [deleteNodeMemoryTurn, if_pos target] at removed
      cases removed
    refine ⟨notBlank, ?_⟩
    by_contra notFound
    push Not at notFound
    -- The first record with the key begins what is deleted, and it is another one.
    obtain ⟨first, isFound⟩ : ∃ first, front.find? (fun record => record.key = user.key) = some first := by
      rw [← Option.isSome_iff_exists, List.find?_isSome]
      obtain ⟨earlier, mem, same⟩ := notFound
      exact ⟨earlier, mem, decide_eq_true same⟩
    obtain ⟨same, before, after, rfl, notBefore⟩ := List.find?_eq_some_iff_append.mp isFound
    have sameKey : first.key = user.key := of_decide_eq_true same
    have whole : memory.records = before ++ first :: (after ++ user :: later) := by
      rw [records, List.append_assoc, List.cons_append]
    rw [removedRecords_deleteNodeMemoryTurn whole sameKey ?_ (sameKey ▸ notBlank)] at removed
    · split_ifs at removed
      · have isFirst := (List.cons.inj removed).1
        exact apart records first (List.mem_append_right _ List.mem_cons_self) (congrArg Record.id isFirst)
    · intro record mem hasKey
      have other := notBefore record mem
      rw [hasKey, sameKey] at other
      simp at other
  · intro found
    refine ⟨fun user inRecords isUser => ?_, readConversation_whole host memory running⟩
    obtain ⟨front, later, records⟩ := List.append_of_mem inRecords
    obtain ⟨notBlank, notFront⟩ := found front user later records isUser
    rw [readConversation_turn host running records isUser (apart records),
      removedRecords_deleteNodeMemoryTurn records rfl notFront notBlank, if_pos isUser]

def userRecord (id : String) (isId : id ≠ "") : Record :=
  ⟨id, "user", [], "t", "", isId, by decide, by decide, by decide, pyStrip_empty⟩

/-- Two user records whose ids differ by a space. -/
def spacedIds : NodeMemory where
  files := [(.current, [userRecord "a" (by decide), userRecord " a" (by decide)])]
  distinct := by decide
  uniqueIds := by decide

/-- Deleting the turn of the second record deletes that of the first. -/
theorem views_disagree : ¬ ∀ (host : Host) (memory : NodeMemory) (running : Bool), ViewsAgree host memory running := by
  intro agree
  have records : spacedIds.records = [userRecord "a" (by decide)] ++ [userRecord " a" (by decide)] := rfl
  have first : spacedIds.records = [] ++ userRecord "a" (by decide) :: [userRecord " a" (by decide)] := rfl
  have turn := (agree ⟨id, fun _ _ => ""⟩ spacedIds false).turn (userRecord " a" (by decide))
    (List.mem_of_mem_getLast? rfl) rfl
  rw [readConversation_turn _ _ records rfl (by decide),
    removedRecords_deleteNodeMemoryTurn first (by decide) (by decide) (by decide)] at turn
  exact absurd turn (by decide)

end AgentPark.Memory
