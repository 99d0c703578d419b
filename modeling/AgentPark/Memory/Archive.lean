import AgentPark.Memory.Disk

/-!
# Archive rotation

`enforce_active_memory_limit` keeps the active file at the configured number of records: it appends
the records in front of the archive boundary to the archives of their dates and rewrites the active
file with the rest.
-/

namespace AgentPark.Memory

open Lib

/-- `record_date`: the date a record was created at, or today. -/
def recordDate (a : Ambient) (r : Record) : String :=
  let createdAt := (pyStrip r.createdAt).toList
  if 10 ≤ createdAt.length ∧ isDateText (createdAt.take 10) then String.ofList (createdAt.take 10)
  else a.today

/-- `str(record.get("id") or "").strip()`. -/
def Record.key (r : Record) : String := pyStrip r.id

/-- The identifiers `read_record_ids` collects. -/
def recordIds (records : List Record) : List String :=
  (records.map Record.key).filter fun id => id ≠ ""

/-- `read_record_ids` on the archive of a date. -/
def readRecordIds (a : Ambient) (date : String) : DiskProgram (Except ReadError (List String)) := do
  let content ← disk (.readArchive date)
  return (readJsonlRecords a (content.getD [])).map recordIds

/-- The identifiers of a date's archive: read once, then kept in `existing_ids_by_date`. -/
def existingIds (a : Ambient) (idsByDate : List (String × List String)) (date : String) :
    DiskProgram (Except ReadError (List String)) :=
  match idsByDate.lookup date with
  | some ids => return .ok ids
  | none => readRecordIds a date

/-- The loop of `archive_records`: a record whose identifier is in its archive already is skipped,
which makes an interrupted rotation safe to repeat. -/
def archiveRecords (a : Ambient) :
    List Record → List (String × List String) → DiskProgram (List Failure)
  | [], _ => return []
  | r :: rs, idsByDate => do
    let date := recordDate a r
    let existing ← existingIds a idsByDate date
    match existing with
    | .error e => return [⟨"archive", .nodeDir, .read e⟩]
    | .ok ids =>
      if r.key ≠ "" ∧ r.key ∈ ids then archiveRecords a rs (dictSet idsByDate date ids)
      else
        let written ← disk (.appendArchive date r.bytes)
        if written then
          let rendered ← disk .writeText
          if rendered then
            archiveRecords a rs
              (dictSet idsByDate date (if r.key ≠ "" then r.key :: ids else ids))
          else return failureOf false "archive" .nodeDir
        else return failureOf false "archive" .nodeDir

/-- `rewrite_active_records`: both files are written, whatever becomes of the first. -/
def rewriteActiveRecords (records : List Record) : DiskProgram (List Failure) := do
  let messages ← disk (.replaceMessages (writeJsonlRecords records))
  let memory ← disk .writeText
  return failureOf messages "messages" .messages ++ failureOf memory "memory" .memory

/-- The end of a rotation: the active file keeps the records behind the boundary, and its index is
taken again. -/
def installActiveRecords (records : List Record) : DiskProgram (List Failure) := do
  let rewritten ← rewriteActiveRecords records
  if rewritten ≠ [] then return rewritten
  else
    let next ← stateFromRecordsNow records
    saveActiveState next

/-- The rotation of `enforce_active_memory_limit` at a boundary. -/
def rotate (a : Ambient) (archiveEnd : Nat) (state : ActiveMemoryState) :
    DiskProgram (Except ReadError (List Failure)) := do
  let records ← readActiveRecords a
  match records with
  | .error e => return .error e
  | .ok records =>
    if records.length ≠ state.recordCount then
      return .ok [⟨"active_state", .messages,
        .recordCountMismatch state.recordCount records.length⟩]
    else
      let archived ← archiveRecords a (records.take archiveEnd) []
      if archived ≠ [] then return .ok archived
      else
        let installed ← installActiveRecords (records.drop archiveEnd)
        return .ok installed

/-- `enforce_active_memory_limit`.  An error of reading the active file is not caught. -/
def enforceActiveMemoryLimit (a : Ambient) (maxEntries : Nat) (state : ActiveMemoryState) :
    DiskProgram (Except ReadError (List Failure)) := do
  let stat ← disk .statMessages
  match stat with
  | none => return .ok []
  | some _ =>
    let archiveEnd :=
      archiveEndForCompleteTurns state.recordCount state.userStarts maxEntries
    if state.recordCount ≤ maxEntries ∨ archiveEnd = 0 then
      let saved ← saveActiveState state
      return .ok saved
    else rotate a archiveEnd state

/-- How a memory transaction ends. -/
inductive Raised where
  | persistence (failures : List Failure)
  | read (error : ReadError)
deriving DecidableEq

/-- `_raise_if_failures`. -/
def raiseIfFailures (failures : List Failure) : Except Raised Unit :=
  if failures = [] then .ok () else .error (.persistence failures)

/-- `record_conversation_commit`, behind the failures of the transaction. -/
def commitConversation (failures : List Failure) : DiskProgram (Except Raised Unit) :=
  match raiseIfFailures failures with
  | .error raised => return .error raised
  | .ok () => do
    let ok ← disk .writeText
    return raiseIfFailures (failureOf ok "conversation_activity" .conversationActivity)

/-- `_append_node_memory_record_unlocked`. -/
def appendNodeMemoryRecord (a : Ambient) (maxEntries : Nat) (r : Record) :
    DiskProgram (Except Raised Unit) := do
  let loaded ← loadActiveMemoryState a
  match loaded with
  | .error e => return .error (.persistence [⟨"active_state", .messages, .read e⟩])
  | .ok state =>
    let messages ← appendMessagesRecord r
    let memory ← appendMarkdownRecord
    if messages ++ memory ≠ [] then return raiseIfFailures (messages ++ memory)
    else
      let advanced ← advanceActiveMemoryState state r
      let enforced ← enforceActiveMemoryLimit a maxEntries advanced
      match enforced with
      | .error e => return .error (.read e)
      | .ok failures => commitConversation failures

/-- A call of `append_node_memory_entry`. -/
structure Append where
  ambient : Ambient
  role : String
  message : Message

def Append.record (call : Append) : Record :=
  buildNodeMemoryRecord call.ambient call.role call.message

/-- The test of `append_node_memory_entry` on the record: without a part there is no text either,
and nothing is stored. -/
def Append.stores (call : Append) : Bool := !call.record.parts.isEmpty

/-- `append_node_memory_entry`. -/
def appendNodeMemoryEntry (maxEntries : Nat) (call : Append) : DiskProgram (Except Raised Unit) :=
  if call.stores then appendNodeMemoryRecord call.ambient maxEntries call.record
  else return .ok ()

/-- `append_node_memory_entry_once`: nothing is appended when the active file has the identifier. -/
def appendNodeMemoryEntryOnce (maxEntries : Nat) (call : Append) :
    DiskProgram (Except Raised Bool) :=
  if call.record.key = "" ∨ !call.stores then return .ok false
  else do
    let records ← readActiveRecords call.ambient
    match records with
    | .error e => return .error (.read e)
    | .ok records =>
      if call.record.key ∈ records.map Record.key then return .ok false
      else
        let appended ← appendNodeMemoryRecord call.ambient maxEntries call.record
        return appended.map fun _ => true

end AgentPark.Memory
