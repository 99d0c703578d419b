import AgentPark.Lib.Execution
import AgentPark.Memory.Rotation

/-!
# The commit of a synchronisation

A merge of synchronised messages replaces several files of a node.  `commit` writes all of them to a journal
first, and every transaction on the node begins with `recover`, which replays the journal that a commit has
left when it was stopped.

* `recover`, `commit` and `runMemoryTransaction` are programs over `NodeDirectory`.  A write that raises ends a
  transaction as a stop in front of it does.
-/

namespace AgentPark.Sync

open Lib Memory Program

/-- What the code asks of its surroundings. -/
structure JournalHost where
  ambient : Ambient
  /-- `(directory / relative).resolve()`, when it lies below the directory. -/
  resolve : String → Option String

/-- Texts by their relative paths. -/
abbrev Changes := List (String × List UInt8)

/-- What lies below the directory of a node beside the journal. -/
structure NodeFiles where
  files : String → Option (List UInt8) := fun _ => none
  /-- `.active-memory-state.json` -/
  index : Option ActiveMemoryState := none
  /-- `owner` of the long-term memory: the revision and the publication. -/
  owner : Option (Nat × Option String) := none
  /-- `conversation_checkpoint.json` -/
  checkpoint : Option (List UInt8) := none

structure NodeDirectory where
  kept : NodeFiles := {}
  /-- `.sync-commit.json` -/
  journal : Option Changes := none

/-- The content of `messages.jsonl`. -/
def NodeFiles.messages (kept : NodeFiles) : List UInt8 := (kept.files "messages.jsonl").getD []

/-- The atomic actions. -/
inductive JournalOp where
  | readJournal
  | writeJournal (changes : Changes)
  | removeJournal
  | writeText (path : String) (text : List UInt8)
  | readMessages
  | statMessages
  | saveIndex (state : ActiveMemoryState)
  | invalidateMemory
  | clearCheckpoint
  /-- An action of the operation that runs in the transaction. -/
  | operate (f : Io → NodeFiles → NodeFiles)

abbrev JournalOp.Answer : JournalOp → Type
  | readJournal => Option Changes
  | readMessages => List UInt8
  | statMessages => Nat × Nat
  | operate _ => NodeFiles
  | _ => Unit

/-- What an action answers and leaves; the clock is the environment's. -/
def NodeDirectory.perform (d : NodeDirectory) : (op : JournalOp) → Io → op.Answer × NodeDirectory
  | .readJournal, _ => (d.journal, d)
  | .writeJournal changes, _ => ((), { d with journal := some changes })
  | .removeJournal, _ => ((), { d with journal := none })
  | .writeText path text, _ =>
    ((), { d with kept := { d.kept with files := Function.update d.kept.files path (some text) } })
  | .readMessages, _ => (d.kept.messages, d)
  | .statMessages, io => (((d.kept.files "messages.jsonl").map fun text => (text.length, io.mtime)).getD (0, 0), d)
  | .saveIndex state, _ => ((), { d with kept := { d.kept with index := some state } })
  | .invalidateMemory, _ =>
    ((), { d with kept := { d.kept with owner := d.kept.owner.map fun owner => (owner.1 + 1, none) } })
  | .clearCheckpoint, _ => ((), { d with kept := { d.kept with checkpoint := none } })
  | .operate f, io => (f io d.kept, { d with kept := f io d.kept })

abbrev JournalProgram := Program JournalOp JournalOp.Answer

/-- An action as a program. -/
def journal (op : JournalOp) : JournalProgram op.Answer := Program.call op

/-- What `recover` raises. -/
inductive RecoverError where
  | invalidPath
  | read (error : ReadError)
deriving DecidableEq

/-- `ValueError("invalid sync journal path")` -/
def RecoverError.text : RecoverError → String
  | invalidPath => "invalid sync journal path"
  | read _ => ""

section

variable (host : JournalHost)

/-- The loop of `recover`. -/
def replay : Changes → JournalProgram (Except RecoverError Unit)
  | [] => return .ok ()
  | (relative, text) :: changes =>
    match host.resolve relative with
    | none => return .error .invalidPath
    | some path => do
      journal (.writeText path text)
      replay changes

/-- The end of `recover`: the derived state is made anew, and the journal is done. -/
def settle : JournalProgram (Except RecoverError Unit) := do
  let content ← journal .readMessages
  match readJsonlRecords host.ambient content with
  | .error e => return .error (.read e)
  | .ok records => do
    let stat ← journal .statMessages
    journal (.saveIndex (stateFromRecords records stat))
    journal .invalidateMemory
    journal .clearCheckpoint
    journal .removeJournal
    return .ok ()

/-- `recover` -/
def recover : JournalProgram (Except RecoverError Unit) := do
  let left ← journal .readJournal
  match left with
  | none => return .ok ()
  | some changes => do
    let replayed ← replay host changes
    match replayed with
    | .error e => return .error e
    | .ok () => settle host

/-- `commit` -/
def commit (changes : Changes) : JournalProgram (Except RecoverError Unit) := do
  journal (.writeJournal changes)
  recover host

/-- An operation, with the changes it commits at its end, if any.  It leaves the journal alone. -/
structure Operation where
  body : JournalProgram (Option Changes)
  own : body.Only fun op => ∃ f, op = .operate f

/-- `run_memory_transaction` -/
def runMemoryTransaction (operation : Operation) : JournalProgram (Except RecoverError Unit) := do
  let recovered ← recover host
  match recovered with
  | .error e => return .error e
  | .ok () => do
    let changes ← operation.body
    match changes with
    | none => return .ok ()
    | some changes => commit host changes

/-- The files behind a complete replay. -/
def applied (changes : Changes) (files : String → Option (List UInt8)) : String → Option (List UInt8) :=
  changes.foldl (fun files change =>
    match host.resolve change.1 with
    | some path => Function.update files path (some change.2)
    | none => files) files

/-- What the files are once the journal is replayed. -/
def NodeDirectory.view (d : NodeDirectory) : String → Option (List UInt8) :=
  match d.journal with
  | none => d.kept.files
  | some changes => applied host changes d.kept.files

/-- A transaction that is stopped when the choices are used up, or runs to its end. -/
def NodeDirectory.step (d : NodeDirectory) (transaction : Operation × List Io) : Option NodeDirectory :=
  some (interrupted NodeDirectory.perform (runMemoryTransaction host transaction.1) d transaction.2)

end

variable {host : JournalHost} {d clean : NodeDirectory} {changes : Changes}
  {files : String → Option (List UInt8)}

/-! ### Replaying -/

theorem applied_cons (relative : String) (text : List UInt8) :
    applied host ((relative, text) :: changes) files =
      applied host changes
        (match host.resolve relative with
          | some path => Function.update files path (some text)
          | none => files) := rfl

/-- What a replay writes it writes again. -/
theorem applied_update {change : String × List UInt8} (mem : change ∈ changes) {path : String}
    (isPath : host.resolve change.1 = some path) (text : Option (List UInt8)) :
    applied host changes (Function.update files path text) = applied host changes files := by
  induction changes generalizing files with
  | nil => cases mem
  | cons first changes ih =>
    obtain ⟨relative, own⟩ := first
    rw [applied_cons, applied_cons]
    rcases List.mem_cons.mp mem with rfl | mem
    · rw [isPath]
      dsimp only
      rw [Function.update_idem]
    · cases found : host.resolve relative with
      | none => exact ih mem
      | some other =>
        dsimp only
        by_cases same : other = path
        · rw [same, Function.update_idem]
        · rw [Function.update_comm (Ne.symm same)]
          exact ih mem

/-- The journal is `changes`, and its replay gives `target`. -/
structure Replaying (host : JournalHost) (changes : Changes) (target : String → Option (List UInt8))
    (d : NodeDirectory) : Prop where
  journal : d.journal = some changes
  target : applied host changes d.kept.files = target

variable {target : String → Option (List UInt8)}

theorem Replaying.view (replaying : Replaying host changes target d) : d.view host = target := by
  rw [NodeDirectory.view, replaying.journal]
  exact replaying.target

/-- A part of the replay. -/
theorem safe_replay {rest : Changes} (part : rest ⊆ changes) (replaying : Replaying host changes target d) :
    Safe NodeDirectory.perform (Replaying host changes target)
      (fun result d' => Replaying host changes target d' ∧
        (result = .ok () → d'.kept.files = applied host rest d.kept.files) ∧
        (result = .ok () ↔ ∀ change ∈ rest, (host.resolve change.1).isSome = true) ∧
        (result = .ok () ∨ result = .error .invalidPath))
      (replay host rest) d := by
  induction rest generalizing d with
  | nil => exact ⟨replaying, ⟨replaying, fun _ => rfl, by simp, .inl rfl⟩⟩
  | cons change rest ih =>
    obtain ⟨relative, text⟩ := change
    obtain ⟨here, later⟩ := List.cons_subset.mp part
    rw [replay, applied_cons]
    cases found : host.resolve relative with
    | none =>
      refine ⟨replaying, ⟨replaying, fun absurd => (by cases absurd),
        ⟨fun absurd => (by cases absurd), fun all => ?_⟩, .inr rfl⟩⟩
      have isSome := all _ List.mem_cons_self
      rw [found] at isSome
      cases isSome
    | some path =>
      refine safe_call_bind replaying fun io => ?_
      have next : Replaying host changes target (d.perform (.writeText path text) io).2 :=
        ⟨replaying.journal, (applied_update here found _).trans replaying.target⟩
      refine Safe.mono (fun _ still => still) (fun result d' _ => ?_) (ih later next)
      rintro ⟨still, whole, inside, either⟩
      refine ⟨still, whole, ?_, either⟩
      rw [inside, List.forall_mem_cons, found]
      exact (and_iff_right rfl).symm

/-- The index is that of the messages, and nothing is derived from older ones. -/
structure Derived (host : JournalHost) (kept : NodeFiles) : Prop where
  index : ∃ records stat, readJsonlRecords host.ambient kept.messages = .ok records ∧
    stat.1 = kept.messages.length ∧ kept.index = some (stateFromRecords records stat)
  published : ∀ owner, kept.owner = some owner → owner.2 = none
  checkpoint : kept.checkpoint = none

/-- The directory is `clean` once the transactions that `d` was left by are recovered. -/
structure Recovered (host : JournalHost) (d clean : NodeDirectory) : Prop where
  journal : clean.journal = none
  files : clean.kept.files = d.view host
  derived : d.journal ≠ none → Derived host clean.kept

/-- What a recovery of the directory depends on. -/
def Recoverable (host : JournalHost) (d : NodeDirectory) : Prop :=
  ∀ changes, d.journal = some changes → (∀ change ∈ changes, (host.resolve change.1).isSome = true) ∧
    ∃ records, readJsonlRecords host.ambient ((d.view host "messages.jsonl").getD []) = .ok records

theorem safe_settle (replaying : Replaying host changes target d) (whole : d.kept.files = target) :
    Safe NodeDirectory.perform (fun d' => d'.view host = target)
      (fun result d' => (result = .ok () → d'.journal = none ∧ d'.kept.files = target ∧ Derived host d'.kept) ∧
        (result = .ok () ↔ ∃ records, readJsonlRecords host.ambient d.kept.messages = .ok records))
      (settle host) d := by
  rw [settle]
  refine safe_call_bind replaying.view fun _ => ?_
  dsimp only [NodeDirectory.perform]
  cases isRead : readJsonlRecords host.ambient d.kept.messages with
  | error e => exact ⟨replaying.view, ⟨fun absurd => (by cases absurd), by simp⟩⟩
  | ok records =>
    refine safe_call_bind replaying.view fun io => safe_call_bind replaying.view fun _ => ?_
    refine safe_call_bind replaying.view fun _ => safe_call_bind replaying.view fun _ => ?_
    refine safe_call_bind replaying.view fun _ => ⟨whole, ⟨fun _ => ⟨rfl, whole, ?_⟩, by simp⟩⟩
    refine ⟨⟨records, _, isRead, ?_, rfl⟩, ?_, rfl⟩
    · change _ = ((d.kept.files "messages.jsonl").getD []).length
      dsimp only [NodeDirectory.perform]
      cases d.kept.files "messages.jsonl" with
      | none => rfl
      | some text => rfl
    · intro owner isOwner
      obtain ⟨old, -, rfl⟩ := Option.map_eq_some_iff.mp isOwner
      rfl

/-- A recovery never changes the view, wherever it is stopped, and goes through when it can. -/
theorem safe_recover (d : NodeDirectory) :
    Safe NodeDirectory.perform (fun d' => d'.view host = d.view host)
      (fun result d' => (result = .ok () → Recovered host d d') ∧ (result = .ok () ↔ Recoverable host d))
      (recover host) d := by
  rw [recover]
  refine safe_call_bind rfl fun _ => ?_
  dsimp only [NodeDirectory.perform]
  cases left : d.journal with
  | none =>
    refine ⟨rfl, ⟨fun _ => ⟨left, ?_, fun absurd => (absurd left).elim⟩, fun _ _ isLeft => ?_, fun _ => rfl⟩⟩
    · rw [NodeDirectory.view, left]
    · rw [left] at isLeft
      cases isLeft
  | some changes =>
    have replaying : Replaying host changes (d.view host) d := by
      refine ⟨left, ?_⟩
      rw [NodeDirectory.view, left]
    refine Safe.bind (Safe.mono (fun _ => Replaying.view) (fun result mid _ => ?_)
      (safe_replay (List.Subset.refl _) replaying))
    rintro ⟨still, whole, inside, either⟩
    cases result with
    | error e =>
      refine ⟨still.view, ⟨fun absurd => (by cases absurd), fun absurd => (by cases absurd), fun can => ?_⟩⟩
      cases inside.mpr (can changes left).1
    | ok u =>
      have same : mid.kept.files = d.view host := (whole rfl).trans replaying.target
      refine Safe.mono (fun _ passes => passes) (fun result d' _ => ?_) (safe_settle still same)
      rintro ⟨settled, readable⟩
      rw [NodeFiles.messages, same] at readable
      refine ⟨fun ok => ?_, readable.trans ⟨fun isReadable other isLeft => ?_, fun can => (can changes left).2⟩⟩
      · obtain ⟨removed, files, derived⟩ := settled ok
        exact ⟨removed, files, fun _ => derived⟩
      · cases left.symm.trans isLeft
        exact ⟨inside.mp rfl, isReadable⟩

theorem safe_commit (isClean : d.journal = none) (changes : Changes) :
    Safe NodeDirectory.perform
      (fun d' => d'.view host = d.kept.files ∨ d'.view host = applied host changes d.kept.files)
      (fun result d' => result = .ok () → d'.journal = none ∧ d'.kept.files = applied host changes d.kept.files)
      (commit host changes) d := by
  rw [commit]
  refine safe_call_bind (.inl ?_) fun _ => ?_
  · rw [NodeDirectory.view, isClean]
  · refine Safe.mono (fun _ same => .inr same) (fun result d' _ recovered ok => ?_)
      (safe_recover { d with journal := some changes })
    obtain ⟨removed, files, -⟩ := recovered.1 ok
    exact ⟨removed, files⟩

/-! ### Transactions -/

/-- What a transaction that may be stopped does to the view: nothing, what its operation has done on the recovered
directory, or that and all of its changes. -/
inductive Happens (host : JournalHost) (operation : Operation) (d d' : NodeDirectory) : Prop where
  | nothing (same : d'.view host = d.view host)
  | operated {clean : NodeDirectory} (ready : Recovered host d clean) (es : List Io)
      (same : d'.view host = (interrupted NodeDirectory.perform operation.body clean es).kept.files)
  | committed {clean done : NodeDirectory} {changes : Changes} {es : List Io} (ready : Recovered host d clean)
      (ran : exec NodeDirectory.perform operation.body clean es = some (some changes, done))
      (whole : d'.view host = applied host changes done.kept.files)

/-- What a transaction that returns has done. -/
def WentThrough (host : JournalHost) (operation : Operation) (d d' : NodeDirectory) : Prop :=
  ∃ clean es changes done, Recovered host d clean ∧
    exec NodeDirectory.perform operation.body clean es = some (changes, done) ∧ d'.journal = none ∧
      d'.kept.files = changes.elim id (applied host) done.kept.files

theorem safe_transaction (operation : Operation) (d : NodeDirectory) :
    Safe NodeDirectory.perform (Happens host operation d)
      (fun result d' => result = .ok () → WentThrough host operation d d')
      (runMemoryTransaction host operation) d := by
  rw [runMemoryTransaction]
  refine Safe.bind (Safe.mono (fun _ => .nothing) (fun result clean same => ?_) (safe_recover d))
  rintro ⟨recovered, -⟩
  cases result with
  | error e => exact ⟨.nothing same, fun absurd => by cases absurd⟩
  | ok u =>
    have ready := recovered rfl
    have calm : ∀ es, (interrupted NodeDirectory.perform operation.body clean es).journal = none := by
      have safe : Safe NodeDirectory.perform (fun d => d.journal = none) (fun _ d => d.journal = none)
          operation.body clean := by
        refine operation.own.safe (fun d op io isOwn none => ?_) ready.journal
        obtain ⟨f, rfl⟩ := isOwn
        exact none
      exact safe.interrupted
    have viewed (es : List Io) {d' : NodeDirectory}
        (left : d' = interrupted NodeDirectory.perform operation.body clean es) :
        d'.view host = d'.kept.files := by
      rw [NodeDirectory.view, left, calm es]
    have operates : Safe NodeDirectory.perform (Happens host operation d)
        (fun changes done => ∃ es, exec NodeDirectory.perform operation.body clean es = some (changes, done))
        operation.body clean :=
      safe_of_runs (fun es => .operated ready es (viewed es rfl)) fun es _ _ ran => ⟨es, ran⟩
    refine Safe.bind (Safe.mono (fun _ happens => happens) (fun changes done happens => ?_) operates)
    rintro ⟨es, ran⟩
    have left := interrupted_of_exec ran
    have isClean : done.journal = none := left ▸ calm es
    cases changes with
    | none => exact ⟨happens, fun _ => ⟨clean, es, none, done, ready, ran, isClean, rfl⟩⟩
    | some changes =>
      refine Safe.mono (fun d' => ?_) (fun result d' _ whole ok => ?_) (safe_commit isClean changes)
      · rintro (before | whole)
        · exact .operated ready es (by rw [before, left])
        · exact .committed ready ran whole
      · obtain ⟨removed, files⟩ := whole ok
        exact ⟨clean, es, some changes, done, ready, ran, removed, files⟩

/-- **A commit happens at once.**  Wherever the transactions on a node are stopped, and whatever journal they
find, the files behind the journal change by nothing, by what an operation has done on the recovered directory, or
by that and all of the changes it commits; an operation runs on a directory without a journal, with all that was
committed; and a transaction that returns has done all of its work. -/
theorem transactions_atomic (host : JournalHost) (d : NodeDirectory) (transactions : List (Operation × List Io)) :
    Along (NodeDirectory.step host)
      (fun d transaction d' => Happens host transaction.1 d d' ∧
        (exec NodeDirectory.perform (runMemoryTransaction host transaction.1) d transaction.2 = some (.ok (), d') →
          WentThrough host transaction.1 d d')) d transactions := by
  induction transactions generalizing d with
  | nil => exact along_nil d
  | cons transaction transactions ih =>
    intro d' stepped
    cases stepped
    have safe := @safe_transaction host transaction.1 d
    exact ⟨⟨safe.interrupted _, fun ran => safe.exec ran rfl⟩, ih _⟩

/-- Every relative path lies below the directory. -/
def plainHost : JournalHost := ⟨plainAmbient, some⟩

/-- An operation that adds a line to the notes of a node. -/
def appendNote : Operation where
  body := do
    let kept ← journal (.operate fun _ kept => kept)
    return some [("memory.md", (kept.files "memory.md").getD [] ++ [35, 10])]
  own := ⟨⟨_, rfl⟩, fun _ => trivial⟩

/-- What is left when a transaction is stopped behind the write of its journal. -/
def halfNoted : NodeDirectory :=
  interrupted NodeDirectory.perform (runMemoryTransaction plainHost appendNote) {} (List.replicate 3 {})

/-- The transaction behind the one that was stopped makes up for it and adds its own line. -/
theorem transactions_atomic_noted :
    halfNoted.kept.files "memory.md" = none ∧
      ∃ d, exec NodeDirectory.perform (runMemoryTransaction plainHost appendNote) halfNoted
          (List.replicate 18 {}) = some (.ok (), d) ∧
        WentThrough plainHost appendNote halfNoted d ∧ d.kept.files "memory.md" = some [35, 10, 35, 10] := by
  have along := transactions_atomic plainHost {}
    [(appendNote, List.replicate 3 {}), (appendNote, List.replicate 18 {})]
  have second := ((along halfNoted rfl).2 _ rfl).1.2
  exact ⟨rfl, _, rfl, second rfl, rfl⟩

/-- **When a recovery goes through.**  A recovery that is not stopped returns exactly when the journal names paths
below the directory only and the messages it leaves can be read; then there is no journal left, the files are those
of the view, and what is derived from older messages is gone. -/
theorem recover_returns_iff {result : Except RecoverError Unit} {d' : NodeDirectory} {es : List Io}
    (ran : exec NodeDirectory.perform (recover host) d es = some (result, d')) :
    (result = .ok () ↔ Recoverable host d) ∧ (result = .ok () → Recovered host d d') := by
  have post := (safe_recover d).exec ran
  exact ⟨post.2, post.1⟩

/-- What a commit of two files leaves that is stopped behind the first. -/
def halfCommitted : NodeDirectory :=
  interrupted NodeDirectory.perform (commit plainHost [("messages.jsonl", []), ("memory.md", [35])]) {}
    (List.replicate 3 {})

/-- A crash in the middle of a commit is rolled back. -/
theorem recover_returns_halfCommitted :
    halfCommitted.kept.files "memory.md" = none ∧
      ∃ d, exec NodeDirectory.perform (recover plainHost) halfCommitted (List.replicate 9 {}) = some (.ok (), d) ∧
        d.journal = none ∧ d.kept.files "memory.md" = some [35] := by
  obtain ⟨d, ran⟩ : ∃ d, exec NodeDirectory.perform (recover plainHost) halfCommitted (List.replicate 9 {}) =
      some (.ok (), d) := ⟨_, rfl⟩
  have recovered := (recover_returns_iff ran).2 rfl
  exact ⟨rfl, d, ran, recovered.journal, by rw [recovered.files]; rfl⟩

end AgentPark.Sync
