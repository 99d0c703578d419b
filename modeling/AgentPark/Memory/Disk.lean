import AgentPark.Lib.Program
import AgentPark.Memory.ActiveState

/-!
# The memory directory of a node

`Disk` is what the memory functions read and write below a node's directory, and `DiskOp` are the
atomic actions they are made of.  A file replaced by `atomic_write_text` is a new file under the old
name, so the active file has an `inode` number, and a reader that holds the old file goes on reading
it (`unlinked`).

The Markdown files and the derived data (long-term memory, checkpoint, active skills) are not read
back by the functions modelled here; only whether writing them fails matters.
-/

namespace AgentPark.Memory

open Lib

/-- The file `messages.jsonl`. -/
structure MessagesFile where
  inode : Nat
  content : List UInt8
  mtime : Nat

/-- A change of a journal entry: the active file, an archive file, or a text file. -/
inductive Change where
  | messages (content : List UInt8)
  | archive (date : String) (content : List UInt8)
  | text

/-- The memory directory of a node. -/
structure Disk where
  active : Option MessagesFile := none
  index : Option ActiveMemoryState := none
  archives : List (String × List UInt8) := []
  journal : Option (List Change) := none
  unlinked : Nat → List UInt8 := fun _ => []
  nextInode : Nat := 0

/-- The size and the modification time of the active file; `_messages_stat` gives `(0, 0)` when it
is missing. -/
def Disk.stat (d : Disk) : Nat × Nat :=
  match d.active with
  | some file => (file.content.length, file.mtime)
  | none => (0, 0)

/-- The bytes of the active file; a missing file has no records. -/
def Disk.content (d : Disk) : List UInt8 :=
  match d.active with
  | some file => file.content
  | none => []

/-- The bytes of the archive of a date. -/
def Disk.archive (d : Disk) (date : String) : List UInt8 := (d.archives.lookup date).getD []

inductive DiskOp where
  | statMessages
  | readMessages
  | appendMessages (bytes : List UInt8)
  | replaceMessages (bytes : List UInt8)
  | readIndex
  | saveIndex (state : ActiveMemoryState)
  | readArchive (date : String)
  | appendArchive (date : String) (bytes : List UInt8)
  | replaceArchive (date : String) (bytes : List UInt8)
  | listArchives
  | writeText
  | readJournal
  | writeJournal (changes : List Change)
  | removeJournal

/-- The answers.  A read of a missing file answers `none`.  A write answers whether it went through;
an append answers how many bytes it wrote, `none` when it raised. -/
abbrev DiskOp.Answer : DiskOp → Type
  | statMessages => Option (Nat × Nat)
  | readMessages => Option (List UInt8)
  | appendMessages _ => Option Nat
  | replaceMessages _ => Bool
  | readIndex => Option ActiveMemoryState
  | saveIndex _ => Bool
  | readArchive _ => Option (List UInt8)
  | appendArchive _ _ => Bool
  | replaceArchive _ _ => Bool
  | listArchives => List String
  | writeText => Bool
  | readJournal => Option (List Change)
  | writeJournal _ => Bool
  | removeJournal => Bool

/-- The environment's choice at an action: whether it raises, how many bytes an append gets out
first, and the time of a write. -/
structure Io where
  fails : Bool := false
  written : Nat := 0
  mtime : Nat := 0

/-- The active file gets new bytes in place. -/
def Disk.extend (d : Disk) (bytes : List UInt8) (mtime : Nat) : Disk :=
  match d.active with
  | some file => { d with active := some { file with content := file.content ++ bytes, mtime } }
  | none => { d with active := some ⟨d.nextInode, bytes, mtime⟩, nextInode := d.nextInode + 1 }

/-- The active file is replaced by a new file. -/
def Disk.replace (d : Disk) (bytes : List UInt8) (mtime : Nat) : Disk :=
  { d with
    active := some ⟨d.nextInode, bytes, mtime⟩
    nextInode := d.nextInode + 1
    unlinked :=
      match d.active with
      | some file => Function.update d.unlinked file.inode file.content
      | none => d.unlinked }

/-- The archive of a date gets these bytes. -/
def Disk.setArchive (d : Disk) (date : String) (bytes : List UInt8) : Disk :=
  { d with archives := dictSet d.archives date bytes }

/-- What an action does.  An append that raises leaves the bytes it got out; a replacement that
raises leaves the old file. -/
def perform (d : Disk) : (op : DiskOp) → Io → op.Answer × Disk
  | .statMessages, _ => (d.active.map fun file => (file.content.length, file.mtime), d)
  | .readMessages, _ => (d.active.map MessagesFile.content, d)
  | .appendMessages bytes, io =>
    if io.fails then (none, d.extend (bytes.take io.written) io.mtime)
    else (some (io.written + 1), d.extend (bytes.take (io.written + 1)) io.mtime)
  | .replaceMessages bytes, io => if io.fails then (false, d) else (true, d.replace bytes io.mtime)
  | .readIndex, _ => (d.index, d)
  | .saveIndex state, io => if io.fails then (false, d) else (true, { d with index := some state })
  | .readArchive date, _ => (d.archives.lookup date, d)
  | .appendArchive date bytes, io =>
    if io.fails then (false, d.setArchive date (d.archive date ++ bytes.take io.written))
    else (true, d.setArchive date (d.archive date ++ bytes))
  | .replaceArchive date bytes, io =>
    if io.fails then (false, d) else (true, d.setArchive date bytes)
  | .listArchives, _ => ((d.archives.map Prod.fst).mergeSort fun x y => decide (x ≤ y), d)
  | .writeText, io => (!io.fails, d)
  | .readJournal, _ => (d.journal, d)
  | .writeJournal changes, io =>
    if io.fails then (false, d) else (true, { d with journal := some changes })
  | .removeJournal, io => if io.fails then (false, d) else (true, { d with journal := none })

/-- A program over the memory directory. -/
abbrev DiskProgram := Program DiskOp DiskOp.Answer

/-- An action as a program. -/
def disk (op : DiskOp) : DiskProgram op.Answer := Program.call op

/-! ### Failures -/

/-- The path a failure names. -/
inductive MemoryPath where
  | nodeDir
  | messages
  | memory
  | archiveMessages (date : String)
  | archiveMemory (date : String)
  | conversationActivity
deriving DecidableEq

/-- The error a failure reports. -/
inductive FailureError where
  | write
  | read (error : ReadError)
  | recordCountMismatch (state file : Nat)
deriving DecidableEq

/-- `NodeMemoryPersistenceFailure`. -/
structure Failure where
  target : String
  path : MemoryPath
  error : FailureError
deriving DecidableEq

/-- The failure of a write that raised, and none otherwise. -/
def failureOf (ok : Bool) (target : String) (path : MemoryPath) : List Failure :=
  if ok then [] else [⟨target, path, .write⟩]

/-! ### The active file and its index -/

/-- `_messages_stat`. -/
def messagesStat : DiskProgram (Nat × Nat) := do
  let stat ← disk .statMessages
  return stat.getD (0, 0)

/-- `read_jsonl_records` on the active file. -/
def readActiveRecords (a : Ambient) : DiskProgram (Except ReadError (List Record)) := do
  let content ← disk .readMessages
  return readJsonlRecords a (content.getD [])

/-- `state_from_records(records, messages_path)`. -/
def stateFromRecordsNow (records : List Record) : DiskProgram ActiveMemoryState := do
  let stat ← messagesStat
  return stateFromRecords records stat

/-- The end of `load_active_memory_state`: take the index from the file. -/
def rescan (a : Ambient) : DiskProgram (Except ReadError ActiveMemoryState) := do
  let records ← readActiveRecords a
  match records with
  | .error e => return .error e
  | .ok records =>
    let state ← stateFromRecordsNow records
    return .ok state

/-- `load_active_memory_state`. -/
def loadActiveMemoryState (a : Ambient) : DiskProgram (Except ReadError ActiveMemoryState) := do
  let stat ← messagesStat
  if stat.1 = 0 then return .ok (stateFromRecords [] stat)
  else
    let index ← disk .readIndex
    match index with
    | some state =>
      if state.messagesSize = stat.1 ∧ state.messagesMtimeNs = stat.2 then return .ok state
      else rescan a
    | none => rescan a

/-- `advance_active_memory_state(state, record, messages_path)`. -/
def advanceActiveMemoryState (state : ActiveMemoryState) (record : Record) :
    DiskProgram ActiveMemoryState := do
  let stat ← messagesStat
  return state.advance record stat

/-- `_save_active_state`. -/
def saveActiveState (state : ActiveMemoryState) : DiskProgram (List Failure) := do
  let ok ← disk (.saveIndex state)
  return failureOf ok "active_state" .messages

/-- The writes of `append_text`, each as long as the file takes it; `fuel` is the length of the
text. -/
def appendText : Nat → List UInt8 → DiskProgram Bool
  | fuel + 1, byte :: bytes => do
    let written ← disk (.appendMessages (byte :: bytes))
    match written with
    | none => return false
    | some n => appendText fuel ((byte :: bytes).drop n)
  | _, _ => return true

/-- `_append_messages_record`. -/
def appendMessagesRecord (record : Record) : DiskProgram (List Failure) := do
  let ok ← appendText record.bytes.length record.bytes
  return failureOf ok "messages" .messages

/-- `_append_markdown_record`. -/
def appendMarkdownRecord : DiskProgram (List Failure) := do
  let ok ← disk .writeText
  return failureOf ok "memory" .memory

end AgentPark.Memory
