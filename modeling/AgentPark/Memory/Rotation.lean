import AgentPark.Memory.DiskSpec
import AgentPark.Memory.History

/-!
# The files hold the history

The append transaction on the disk does to the files what `History.append` does to the history, as
long as it returns normally.
-/

namespace AgentPark.Memory

open Lib Program

variable {C : Disk → DiskOp → Io → Prop}

/-- The bytes of archive files. -/
def encodeFiles (files : List (String × List Record)) : List (String × List UInt8) :=
  files.map fun file => (file.1, writeJsonlRecords file.2)

/-- The files hold the history: the active file its active records, the archives the others. -/
structure Disk.Holds (d : Disk) (h : History) : Prop where
  content : d.content = writeJsonlRecords h.active
  archives : d.archives = encodeFiles (archiveFiles h.archived)

/-! ### The archives -/

/-- The archives after some more archived records. -/
def storeAll (a : Ambient) (files : List (String × List Record)) (rs : List Record) :
    List (String × List Record) :=
  rs.foldl (fun files r => storeArchived files (recordDate a r) r) files

theorem archiveFiles_append (a : Ambient) (archived : List (String × Record)) (rs : List Record) :
    archiveFiles (archived ++ rs.map fun r => (recordDate a r, r)) =
      storeAll a (archiveFiles archived) rs := by
  rw [archiveFiles, List.foldl_append, List.foldl_map, storeAll, archiveFiles]

/-- The identifiers that were read are those of the archives. -/
def IdsAgree (idsByDate : List (String × List String)) (files : List (String × List Record)) : Prop :=
  ∀ date ids, idsByDate.lookup date = some ids →
    ∀ k, k ∈ ids ↔ k ∈ recordIds ((files.lookup date).getD [])

variable {d : Disk} {files : List (String × List Record)}

theorem Disk.archive_encode (holds : d.archives = encodeFiles files) (date : String) :
    d.archive date = writeJsonlRecords ((files.lookup date).getD []) := by
  rw [Disk.archive, holds, encodeFiles, lookup_map_value]
  cases files.lookup date <;> rfl

variable {a : Ambient} {idsByDate : List (String × List String)}

theorem wp_existingIds {date : String} {Q : Except ReadError (List String) → Disk → Prop}
    (holds : d.archives = encodeFiles files) (agree : IdsAgree idsByDate files)
    (post : ∀ ids, (∀ k, k ∈ ids ↔ k ∈ recordIds ((files.lookup date).getD [])) → Q (.ok ids) d) :
    wp perform C Q (existingIds a idsByDate date) d := by
  unfold existingIds
  cases known : idsByDate.lookup date with
  | some ids => exact post ids (agree date ids known)
  | none =>
    simp only
    rw [readRecordIds, wp_disk_bind]
    intro io _
    have content := d.archive_encode holds date
    rw [Disk.archive] at content
    rw [wp_return, perform, content, readJsonlRecords_write]
    exact post _ fun k => Iff.rfl

theorem IdsAgree.set {files' : List (String × List Record)} (agree : IdsAgree idsByDate files)
    {date : String} {ids : List String}
    (here : ∀ k, k ∈ ids ↔ k ∈ recordIds ((files'.lookup date).getD []))
    (elsewhere : ∀ other, other ≠ date → files'.lookup other = files.lookup other) :
    IdsAgree (dictSet idsByDate date ids) files' := by
  intro other ids' found
  rw [lookup_dictSet] at found
  split_ifs at found with same
  · cases found
    rw [same]
    exact here
  · rw [elsewhere other same]
    exact agree other ids' found

theorem recordIds_append (rs ss : List Record) :
    recordIds (rs ++ ss) = recordIds rs ++ recordIds ss := by
  simp [recordIds]

theorem Disk.archives_setArchive (holds : d.archives = encodeFiles files) (date : String)
    (r : Record) :
    (d.setArchive date (d.archive date ++ r.bytes)).archives =
      encodeFiles (dictSet files date ((files.lookup date).getD [] ++ [r])) := by
  have bytes : writeJsonlRecords ((files.lookup date).getD [] ++ [r]) =
      d.archive date ++ r.bytes := by
    rw [writeJsonlRecords_append, writeJsonlRecords_singleton, d.archive_encode holds]
  have set := map_dictSet writeJsonlRecords files date ((files.lookup date).getD [] ++ [r])
  rw [bytes] at set
  rw [encodeFiles, set, Disk.setArchive, holds, encodeFiles]

/-- Archiving keeps the relation. -/
theorem wp_archiveRecords {rs : List Record} {Q : List Failure → Disk → Prop}
    (holds : d.archives = encodeFiles files) (agree : IdsAgree idsByDate files)
    (stored : Q [] { d with archives := encodeFiles (storeAll a files rs) })
    (failed : MayFail C → ∀ archives failures, failures ≠ [] →
      Q failures { d with archives := archives }) :
    wp perform C Q (archiveRecords a rs idsByDate) d := by
  induction rs generalizing idsByDate files d with
  | nil =>
    rw [archiveRecords, wp_return]
    rw [show storeAll a files [] = files from rfl, ← holds] at stored
    exact stored
  | cons r rs ih =>
    rw [archiveRecords, wp_bind]
    refine wp_existingIds holds agree fun ids here => ?_
    dsimp only
    by_cases skip : r.key ≠ "" ∧ r.key ∈ ids
    · have same : storeArchived files (recordDate a r) r = files :=
        if_pos ⟨skip.1, (here _).mp skip.2⟩
      rw [if_pos skip]
      refine ih holds (agree.set here fun other _ => rfl) ?_ failed
      rw [storeAll, List.foldl_cons, same] at stored
      exact stored
    · have notThere : ¬ (r.key ≠ "" ∧ r.key ∈ recordIds ((files.lookup (recordDate a r)).getD [])) :=
        fun both => skip ⟨both.1, (here _).mpr both.2⟩
      have set : storeArchived files (recordDate a r) r = dictSet files (recordDate a r)
          ((files.lookup (recordDate a r)).getD [] ++ [r]) := if_neg notThere
      rw [if_neg skip]
      refine wp_appendArchive_bind ?_ fun raised archives =>
        failed raised archives _ (List.cons_ne_nil _ _)
      rw [if_pos rfl]
      refine wp_writeText_bind fun ok raised => ?_
      cases ok with
      | false => exact failed (raised rfl) _ _ (List.cons_ne_nil _ _)
      | true =>
        rw [if_pos rfl]
        have written := d.archives_setArchive holds (recordDate a r) r
        rw [← set] at written
        refine ih written (agree.set ?_ ?_) stored failed
        · intro k
          rw [set, lookup_dictSet, if_pos rfl, Option.getD_some, recordIds_append,
            List.mem_append, ← here k]
          split_ifs with notEmpty
          · simp [recordIds, notEmpty, or_comm]
          · have blank : r.key = "" := not_not.mp notEmpty
            simp [recordIds, blank]
        · intro other differs
          rw [set, lookup_dictSet, if_neg differs]

/-! ### The append transaction -/

/-- An index that the program would trust is the index of the active records. -/
def Disk.Indexed (d : Disk) (rs : List Record) : Prop :=
  ∀ state, d.index = some state → state.messagesSize = d.stat.1 →
    state.messagesMtimeNs = d.stat.2 → state = stateFromRecords rs d.stat

variable {h : History}

theorem Disk.Holds.agrees (holds : d.Holds h) (indexed : d.Indexed h.active) (a : Ambient) :
    d.Agrees a := by
  intro state index size mtime _
  refine ⟨h.active, ?_, indexed state index size mtime⟩
  rw [holds.content, readJsonlRecords_write]

/-- The files hold the history, and the index is the one of its active records. -/
structure Disk.Keeps (d : Disk) (h : History) : Prop extends d.Holds h where
  indexed : d.Indexed h.active

theorem wp_commitConversation {Q : Except Raised Unit → Disk → Prop} (committed : Q (.ok ()) d)
    (failed : MayFail C → ∀ raised, Q (.error raised) d) :
    wp perform C Q (commitConversation []) d := by
  rw [commitConversation, raiseIfFailures, if_pos rfl]
  refine wp_writeText_bind fun ok raised => ?_
  cases ok with
  | true => exact committed
  | false => exact failed (raised rfl) _

theorem commitConversation_of_ne {failures : List Failure} (nonempty : failures ≠ []) :
    commitConversation failures = pure (.error (.persistence failures)) := by
  have raised : raiseIfFailures failures = .error (.persistence failures) := if_neg nonempty
  unfold commitConversation
  rw [raised]

/-- What is known when a call ends: it went through unless something could fail, and when it went
through the files hold the history `h`. -/
def Ended (C : Disk → DiskOp → Io → Prop) (h : History) (result : Except Raised Unit) (d : Disk) :
    Prop :=
  (¬ MayFail C → result = .ok ()) ∧ (result = .ok () → d.Keeps h)

theorem Ended.of_error {raised : Raised} (mayFail : MayFail C) :
    Ended C h (.error raised) d := ⟨fun none => absurd mayFail none, nofun⟩

variable {maxEntries : Nat}

/-- So does the whole transaction. -/
theorem wp_appendNodeMemoryRecord {r : Record} (keeps : d.Keeps h) :
    wp perform C (Ended C (h.append a maxEntries r)) (appendNodeMemoryRecord a maxEntries r) d := by
  have readable : readJsonlRecords a d.content = .ok h.active := by
    rw [keeps.content, readJsonlRecords_write]
  rw [appendNodeMemoryRecord, wp_bind]
  refine wp_loadActiveMemoryState (keeps.toHolds.agrees keeps.indexed a) ?_
  rw [readable, Except.map]
  dsimp only
  rw [wp_bind]
  refine wp_appendMessagesRecord (V := fun _ => True) (fun _ _ _ _ => trivial) ?_ ?_
  · rintro _ ⟨-, -, front, mtime, -, whole, rfl⟩
    rw [whole rfl, appendMarkdownRecord, wp_bind]
    refine wp_writeText_bind fun ok raised => ?_
    cases ok with
    | false => exact Ended.of_error (raised rfl)
    | true =>
      rw [wp_return, if_neg (by simp [failureOf]), wp_bind]
      refine wp_advanceActiveMemoryState ?_
      rw [advance_stateFromRecords, wp_bind]
      have content : (d.extend r.bytes mtime).content = writeJsonlRecords (h.active ++ [r]) := by
        rw [Disk.content_extend, keeps.content, writeJsonlRecords_append,
          writeJsonlRecords_singleton]
      have archives : (d.extend r.bytes mtime).archives = encodeFiles (archiveFiles h.archived) := by
        rw [Disk.archives_extend, keeps.archives]
      have readable : readJsonlRecords a (d.extend r.bytes mtime).content = .ok (h.active ++ [r]) := by
        rw [content, readJsonlRecords_write]
      have appended : h.append a maxEntries r =
          History.rotate a (archiveBoundary maxEntries (h.active ++ [r]))
            { h with active := h.active ++ [r] } := rfl
      refine wp_enforceActiveMemoryLimit (V := fun _ => True) (F := MayFail C)
        (n := archiveBoundary maxEntries (h.active ++ [r]))
        (A := fun files => files = encodeFiles (storeAll a (archiveFiles h.archived)
          ((h.active ++ [r]).take (archiveBoundary maxEntries (h.active ++ [r])))))
        (fun _ _ _ _ _ => trivial) id (Disk.active_extend d _ _) readable rfl ?_ ?_ ?_ ?_
      · intro _
        refine wp_archiveRecords archives (fun _ _ found => by cases found) ⟨fun _ => rfl, fun absurd => (absurd rfl).elim⟩ ?_
        exact fun mayFail _ failures nonempty => ⟨fun none => absurd none nonempty,
          fun _ => mayFail⟩
      · intro zero
        refine wp_commitConversation ?_ fun mayFail _ => Ended.of_error mayFail
        rw [appended, zero]
        refine ⟨fun _ => rfl, fun _ => ⟨⟨?_, ?_⟩, ?_⟩⟩
        · exact content
        · rw [History.rotate, List.take_zero, List.map_nil, List.append_nil]
          exact archives
        · rintro state ⟨⟩ - -
          rfl
      · intro _ files mtime' stored _
        refine wp_commitConversation ?_ fun mayFail _ => Ended.of_error mayFail
        rw [appended]
        refine ⟨fun _ => rfl, fun _ => ⟨⟨rfl, ?_⟩, ?_⟩⟩
        · rw [History.rotate, archiveFiles_append]
          exact stored
        · rintro state ⟨⟩ - -
          rfl
      · intro mayFail d' failures nonempty _ _
        dsimp only
        rw [commitConversation_of_ne nonempty]
        exact Ended.of_error mayFail
  · rintro d' ⟨-, mayFail, -⟩
    rw [appendMarkdownRecord, wp_bind]
    refine wp_writeText_bind fun ok _ => ?_
    rw [wp_return, if_pos (by simp), wp_return, raiseIfFailures, if_neg (by simp)]
    exact Ended.of_error (mayFail rfl)

/-! ### Any number of calls -/

/-- The calls one after another, with what each of them raised. -/
def appendAll (maxEntries : Nat) : List Append → DiskProgram (List (Except Raised Unit))
  | [] => return []
  | call :: calls => do
    let result ← appendNodeMemoryEntry maxEntries call
    let results ← appendAll maxEntries calls
    return result :: results

/-- The records the calls append. -/
def appendedRecords (calls : List Append) : List Record :=
  (calls.filter Append.stores).map Append.record

/-- The history after a call. -/
def History.call (maxEntries : Nat) (h : History) (call : Append) : History :=
  if call.stores then h.append call.ambient maxEntries call.record else h

theorem History.records_calls (maxEntries : Nat) (h : History) (calls : List Append) :
    (calls.foldl (History.call maxEntries) h).records = h.records ++ appendedRecords calls := by
  induction calls generalizing h with
  | nil => simp [appendedRecords]
  | cons call calls ih =>
    rw [List.foldl_cons, ih, History.call, appendedRecords, appendedRecords]
    by_cases stores : call.stores = true
    · rw [if_pos stores, History.append_records, List.filter_cons_of_pos stores]
      simp
    · rw [if_neg stores, List.filter_cons_of_neg stores]

theorem History.active_calls (maxEntries : Nat) {appended : List Record}
    (active : h.active = activeAfter maxEntries appended) (calls : List Append) :
    (calls.foldl (History.call maxEntries) h).active =
      activeAfter maxEntries (appended ++ appendedRecords calls) := by
  induction calls generalizing h appended with
  | nil => simpa [appendedRecords] using active
  | cons call calls ih =>
    rw [List.foldl_cons, History.call]
    by_cases stores : call.stores = true
    · have next : (h.append call.ambient maxEntries call.record).active =
          activeAfter maxEntries (appended ++ [call.record]) := by
        rw [activeAfter_concat, ← active]
        rfl
      rw [if_pos stores, ih next, appendedRecords, appendedRecords,
        List.filter_cons_of_pos stores]
      simp
    · rw [if_neg stores, ih active, appendedRecords, appendedRecords,
        List.filter_cons_of_neg stores]

/-- Every archived record stands under the date that the call archiving it gave it. -/
def History.Dated (calls : List Append) (h : History) : Prop :=
  ∀ entry ∈ h.archived, ∃ call ∈ calls, entry.1 = recordDate call.ambient entry.2

theorem History.Dated.append {calls : List Append} (dated : h.Dated calls) {call : Append}
    (among : call ∈ calls) (maxEntries : Nat) :
    (h.append call.ambient maxEntries call.record).Dated calls := by
  intro entry mem
  rw [History.append, History.rotate, List.mem_append] at mem
  rcases mem with old | new
  · exact dated entry old
  · obtain ⟨r, -, same⟩ := List.mem_map.mp new
    exact ⟨call, among, by rw [← same]⟩

theorem History.Dated.calls (maxEntries : Nat) {all : List Append} (dated : h.Dated all)
    {calls : List Append} (among : ∀ call ∈ calls, call ∈ all) :
    (calls.foldl (History.call maxEntries) h).Dated all := by
  induction calls generalizing h with
  | nil => exact dated
  | cons call calls ih =>
    rw [List.foldl_cons]
    refine ih ?_ fun c mem => among c (List.mem_cons_of_mem _ mem)
    rw [History.call]
    split_ifs
    · exact dated.append (among call List.mem_cons_self) maxEntries
    · exact dated

theorem not_mayFail : ¬ MayFail fun _ _ io => io.fails = false := by
  rintro ⟨_, _, io, safe, fails⟩
  exact absurd fails (by simp [safe])

/-- What is known when all calls have ended. -/
def AllEnded (C : Disk → DiskOp → Io → Prop) (h : History) (results : List (Except Raised Unit))
    (d : Disk) : Prop :=
  (¬ MayFail C → ∀ result ∈ results, result = .ok ()) ∧
    ((∀ result ∈ results, result = .ok ()) → d.Keeps h)

theorem wp_appendNodeMemoryEntry {call : Append} (keeps : d.Keeps h) :
    wp perform C (Ended C (h.call maxEntries call)) (appendNodeMemoryEntry maxEntries call) d := by
  rw [appendNodeMemoryEntry, History.call]
  by_cases stores : call.stores = true
  · rw [if_pos stores, if_pos stores]
    exact wp_appendNodeMemoryRecord keeps
  · rw [if_neg stores, if_neg stores]
    exact ⟨fun _ => rfl, fun _ => keeps⟩

theorem wp_appendAll {calls : List Append} (keeps : d.Keeps h) :
    wp perform C (AllEnded C (calls.foldl (History.call maxEntries) h))
      (appendAll maxEntries calls) d := by
  induction calls generalizing h d with
  | nil => exact ⟨fun _ _ => nofun, fun _ => keeps⟩
  | cons call calls ih =>
    rw [appendAll, wp_bind]
    refine wp_mono (fun result d' ended => ?_) (wp_appendNodeMemoryEntry keeps)
    rw [wp_bind, List.foldl_cons]
    cases result with
    | ok value =>
      refine wp_mono (fun results d'' later => ?_) (ih (ended.2 rfl))
      refine ⟨fun safe result mem => ?_, fun ok => ?_⟩
      · rcases List.mem_cons.mp mem with rfl | mem
        · exact ended.1 safe
        · exact later.1 safe result mem
      · exact later.2 fun result mem => ok result (List.mem_cons_of_mem _ mem)
    | error raised =>
      refine wp_of_forall fun results d'' => ⟨fun safe => ?_, fun ok => ?_⟩
      · exact absurd (ended.1 safe) nofun
      · exact absurd (ok _ List.mem_cons_self) nofun

/-- The first record of each identifier; records without an identifier all stay. -/
def keepFirst (records : List Record) : List Record :=
  records.foldl (fun kept r => if r.key ≠ "" ∧ r.key ∈ recordIds kept then kept else kept ++ [r]) []

theorem archiveOf_eq_keepFirst (archived : List (String × Record)) (date : String) :
    archiveOf archived date =
      keepFirst ((archived.filter fun entry => entry.1 = date).map Prod.snd) := by
  induction archived using List.reverseRecOn with
  | nil => rfl
  | append_singleton archived entry ih =>
    obtain ⟨day, r⟩ := entry
    rw [archiveOf_concat, List.filter_append]
    by_cases here : day = date
    · subst here
      rw [List.filter_cons_of_pos (by simp), List.filter_nil, List.map_append, keepFirst,
        List.map_singleton, List.foldl_append, ← keepFirst, ← ih, List.foldl_cons, List.foldl_nil]
      by_cases skip : r.key ≠ "" ∧ r.key ∈ recordIds (archiveOf archived day)
      · rw [if_pos skip, if_neg fun h => h.2 skip]
      · rw [if_neg skip, if_pos ⟨rfl, skip⟩]
    · rw [List.filter_cons_of_neg (by simpa using here), List.filter_nil, List.append_nil, ← ih,
        if_neg fun h => here h.1.symm]

/-- The records in all archive files and the active file. -/
def storedRecords (a : Ambient) (d : Disk) : Except ReadError (List Record) := do
  let archived ← d.archives.mapM fun file => readJsonlRecords a file.2
  let active ← readJsonlRecords a d.content
  return archived.flatten ++ active

theorem Disk.Holds.storedRecords (holds : d.Holds h) (a : Ambient) :
    Memory.storedRecords a d = .ok ((archiveFiles h.archived).flatMap Prod.snd ++ h.active) := by
  have archives (files : List (String × List Record)) :
      (encodeFiles files).mapM (fun file => readJsonlRecords a file.2) =
        .ok (files.map Prod.snd) := by
    induction files with
    | nil => rfl
    | cons file files ih =>
      rw [encodeFiles, List.map_cons, List.mapM_cons, readJsonlRecords_write, ← encodeFiles, ih]
      rfl
  rw [Memory.storedRecords, holds.archives, archives, holds.content, readJsonlRecords_write,
    List.flatMap_def]
  rfl

theorem Disk.keeps_empty : Disk.Keeps {} {} := by
  refine ⟨⟨rfl, rfl⟩, ?_⟩
  intro state index
  cases index

/-- A sequence of calls on a new node.  While nothing fails every call returns.  When every call
returned, the appended records are some archived records followed by the active ones; the active
file holds the suffix behind the archive boundary, and the archive of a date holds the first record
of each identifier that was archived under the date.  All records are stored exactly when no archived
record repeats an earlier identifier of its date. -/
theorem appendAll_stores {maxEntries : Nat} {calls : List Append} {es : List Io}
    {results : List (Except Raised Unit)} {d : Disk}
    (ran : exec perform (appendAll maxEntries calls) {} es = some (results, d)) :
    (Meets perform (fun _ _ io => io.fails = false) (appendAll maxEntries calls) {} es →
      ∀ result ∈ results, result = .ok ()) ∧
    ((∀ result ∈ results, result = .ok ()) →
      ∃ archived : List (String × Record),
        archived.map Prod.snd ++ activeAfter maxEntries (appendedRecords calls) =
          appendedRecords calls ∧
        (∀ entry ∈ archived, ∃ call ∈ calls, entry.1 = recordDate call.ambient entry.2) ∧
        d.content = writeJsonlRecords (activeAfter maxEntries (appendedRecords calls)) ∧
        (∀ date, d.archive date = writeJsonlRecords
          (keepFirst ((archived.filter fun entry => entry.1 = date).map Prod.snd))) ∧
        ∀ a, ∃ stored, storedRecords a d = .ok stored ∧
          List.Subperm stored (appendedRecords calls) ∧
          (List.Perm stored (appendedRecords calls) ↔ NoRepeat archived)) := by
  constructor
  · intro meets
    have ended := wp_exec (wp_appendAll Disk.keeps_empty) meets ran
    exact ended.1 not_mayFail
  · intro returned
    have keeps := (wp_exec (wp_appendAll Disk.keeps_empty) meets_true ran).2 returned
    have records := History.records_calls maxEntries {} calls
    have nothing : History.active {} = activeAfter maxEntries [] := rfl
    have active := History.active_calls maxEntries nothing calls
    have start : History.Dated calls {} := by
      intro entry mem
      cases mem
    have dated := start.calls maxEntries fun _ mem => mem
    generalize calls.foldl (History.call maxEntries) {} = h at keeps records active dated
    rw [List.nil_append] at active
    have split : h.archived.map Prod.snd ++ activeAfter maxEntries (appendedRecords calls) =
        appendedRecords calls := by
      rw [← active, ← History.records, records, History.records]
      rfl
    refine ⟨h.archived, split, dated, ?_, fun date => ?_, fun a => ?_⟩
    · rw [keeps.content, active]
    · rw [d.archive_encode keeps.archives, ← archiveOf_eq_keepFirst]
      rfl
    · refine ⟨_, keeps.toHolds.storedRecords a, ?_⟩
      obtain ⟨sub, all⟩ := archiveFiles_subperm h.archived
      rw [active, ← all]
      generalize activeAfter maxEntries (appendedRecords calls) = rest at split
      rw [← split]
      exact ⟨(List.subperm_append_right _).mpr sub, List.perm_append_right_iff _⟩

/-- Plain surroundings for concrete runs. -/
def plainAmbient : Ambient where
  uuid := fun _ => "c2f1"
  now := "2024-01-01T10:00:00"
  today := "2024-01-01"
  repr := fun _ => "[]"
  urlparse := fun _ => none
  uuid_ne := fun _ => by decide
  now_ne := by decide
  repr_ne := fun _ => by decide
  today_date := by decide

/-- A user's message with an identifier and a text. -/
def userMessage (id text : String) : Message where
  json := .obj [("id", .str id), ("created_at", .str "2024-01-01T10:00:00"), ("text", .str text)]
  unique := by
    refine Json.uniqueKeys_obj.mpr ⟨by simp, ?_⟩
    simp only [List.forall_mem_cons]
    exact ⟨trivial, trivial, trivial, by simp⟩

theorem exists_safe_exec {α : Type} (p : DiskProgram α) (d : Disk) :
    ∃ es result d', Meets perform (fun _ _ io => io.fails = false) p d es ∧
      exec perform p d es = some (result, d') := by
  refine exists_exec ?_ p d
  intro d op
  exact ⟨{}, rfl⟩

/-- Four messages of a user, each under an identifier of its own. -/
def fourMessages : List Append :=
  [("a", "one"), ("b", "two"), ("c", "three"), ("d", "four")].map fun entry =>
    ⟨plainAmbient, "user", userMessage entry.1 entry.2⟩

/-- With a limit of two records, all of them are stored. -/
theorem appendAll_stores_fourMessages :
    ∃ es results d, exec perform (appendAll 2 fourMessages) {} es = some (results, d) ∧
      (∀ result ∈ results, result = .ok ()) ∧
      ∃ stored, storedRecords plainAmbient d = .ok stored ∧
        List.Perm stored (appendedRecords fourMessages) := by
  obtain ⟨es, results, d, meets, ran⟩ := exists_safe_exec (appendAll 2 fourMessages) {}
  have returned := (appendAll_stores ran).1 meets
  obtain ⟨archived, split, -, -, -, stores⟩ := (appendAll_stores ran).2 returned
  obtain ⟨stored, read, -, all⟩ := stores plainAmbient
  refine ⟨es, results, d, ran, returned, stored, read, all.mpr ?_⟩
  have distinct : (appendedRecords fourMessages).Pairwise fun x y => x.key ≠ y.key := by decide
  rw [← split, List.pairwise_append, List.pairwise_map] at distinct
  exact distinct.1.imp fun ne same => ne same.2.2

/-- Three messages of a user under one identifier. -/
def repeatedMessages : List Append :=
  ["one", "two", "three"].map fun text => ⟨plainAmbient, "user", userMessage "a" text⟩

/-- With a limit of one record, the second of them is neither archived nor active. -/
theorem appendAll_loses_repeated :
    ∃ es results d, exec perform (appendAll 1 repeatedMessages) {} es = some (results, d) ∧
      (∀ result ∈ results, result = .ok ()) ∧
      ¬ ∃ stored, storedRecords plainAmbient d = .ok stored ∧
        List.Perm stored (appendedRecords repeatedMessages) := by
  obtain ⟨es, results, d, meets, ran⟩ := exists_safe_exec (appendAll 1 repeatedMessages) {}
  have ended := wp_exec (wp_appendAll Disk.keeps_empty) meets ran
  have returned := ended.1 not_mayFail
  refine ⟨es, results, d, ran, returned, ?_⟩
  rintro ⟨stored, read, perm⟩
  rw [(ended.2 returned).toHolds.storedRecords] at read
  have same := Except.ok.inj read
  have two : ((archiveFiles (repeatedMessages.foldl (History.call 1) {}).archived).flatMap
      Prod.snd ++ (repeatedMessages.foldl (History.call 1) {}).active).length = 2 := by decide
  have three : (appendedRecords repeatedMessages).length = 3 := by decide
  have length := perm.length_eq
  rw [← same, two, three] at length
  omega

end AgentPark.Memory
