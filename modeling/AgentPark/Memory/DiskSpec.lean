import AgentPark.Memory.Archive

/-!
# What the programs over the memory directory do

One rule for each program of `Memory.Disk`: what it answers, and what it leaves on the disk.  The
rules hold under any condition `C` on the environment's choices.
-/

namespace AgentPark.Memory

open Lib Program

variable {C : Disk → DiskOp → Io → Prop} {α : Type} {Q : α → Disk → Prop}

/-- The condition lets an action raise. -/
def MayFail (C : Disk → DiskOp → Io → Prop) : Prop := ∃ d op io, C d op io ∧ io.fails = true

theorem wp_disk_bind {op : DiskOp} {f : op.Answer → DiskProgram α} {d : Disk} :
    wp perform C Q (disk op >>= f) d ↔ ∀ io, C d op io →
      wp perform C Q (f (perform d op io).1) (perform d op io).2 := by
  rw [wp_bind, disk, wp_call]

theorem wp_return {a : α} {d : Disk} : wp perform C Q (pure a) d ↔ Q a d := Iff.rfl

section Stat

variable (d : Disk)

theorem Disk.stat_eq : d.stat = (d.active.map fun file => (file.content.length, file.mtime)).getD (0, 0) := by
  unfold Disk.stat
  cases d.active <;> rfl

theorem Disk.content_eq : d.content = (d.active.map MessagesFile.content).getD [] := by
  unfold Disk.content
  cases d.active <;> rfl

theorem Disk.stat_size : d.stat.1 = d.content.length := by
  unfold Disk.stat Disk.content
  cases d.active <;> rfl

end Stat

/-! ### Reading -/

variable {d : Disk}

theorem wp_messagesStat {Q : Nat × Nat → Disk → Prop} (post : Q d.stat d) :
    wp perform C Q messagesStat d := by
  rw [messagesStat, wp_disk_bind]
  intro io _
  rw [wp_return, perform, ← d.stat_eq]
  exact post

variable {a : Ambient}

theorem wp_readActiveRecords {Q : Except ReadError (List Record) → Disk → Prop}
    (post : Q (readJsonlRecords a d.content) d) :
    wp perform C Q (readActiveRecords a) d := by
  rw [readActiveRecords, wp_disk_bind]
  intro io _
  rw [wp_return, perform, ← d.content_eq]
  exact post

theorem wp_stateFromRecordsNow {rs : List Record} {Q : ActiveMemoryState → Disk → Prop}
    (post : Q (stateFromRecords rs d.stat) d) : wp perform C Q (stateFromRecordsNow rs) d := by
  rw [stateFromRecordsNow, wp_bind]
  exact wp_messagesStat post

theorem wp_rescan {Q : Except ReadError ActiveMemoryState → Disk → Prop}
    (post : Q ((readJsonlRecords a d.content).map fun rs => stateFromRecords rs d.stat) d) :
    wp perform C Q (rescan a) d := by
  rw [rescan, wp_bind]
  refine wp_readActiveRecords ?_
  cases read : readJsonlRecords a d.content with
  | error e =>
    rw [read] at post
    exact post
  | ok rs =>
    rw [read] at post
    rw [wp_bind]
    exact wp_stateFromRecordsNow post

/-- The index the program would trust is the index of the records in the active file. -/
def Disk.Agrees (a : Ambient) (d : Disk) : Prop :=
  ∀ state, d.index = some state → state.messagesSize = d.stat.1 →
    state.messagesMtimeNs = d.stat.2 → d.content ≠ [] →
      ∃ rs, readJsonlRecords a d.content = .ok rs ∧ state = stateFromRecords rs d.stat

/-- Loading gives the index of the active records. -/
theorem wp_loadActiveMemoryState {Q : Except ReadError ActiveMemoryState → Disk → Prop}
    (agrees : d.Agrees a)
    (post : Q ((readJsonlRecords a d.content).map fun rs => stateFromRecords rs d.stat) d) :
    wp perform C Q (loadActiveMemoryState a) d := by
  rw [loadActiveMemoryState, wp_bind]
  refine wp_messagesStat ?_
  by_cases empty : d.stat.1 = 0
  · rw [if_pos empty, wp_return]
    have content : d.content = [] := by
      rw [d.stat_size] at empty
      exact List.length_eq_zero_iff.mp empty
    rw [content] at post
    exact post
  · rw [if_neg empty, wp_disk_bind]
    intro io _
    rw [perform]
    cases index : d.index with
    | none => exact wp_rescan post
    | some state =>
      by_cases trusted : state.messagesSize = d.stat.1 ∧ state.messagesMtimeNs = d.stat.2
      · have content : d.content ≠ [] := by
          intro none
          exact empty (by rw [d.stat_size, none]; rfl)
        obtain ⟨rs, read, same⟩ := agrees state index trusted.1 trusted.2 content
        rw [read] at post
        simp only [if_pos trusted, wp_return]
        rw [same]
        exact post
      · simp only [if_neg trusted]
        exact wp_rescan post

theorem wp_advanceActiveMemoryState {state : ActiveMemoryState} {r : Record}
    {Q : ActiveMemoryState → Disk → Prop} (post : Q (state.advance r d.stat) d) :
    wp perform C Q (advanceActiveMemoryState state r) d := by
  rw [advanceActiveMemoryState, wp_bind]
  exact wp_messagesStat post

/-! ### Writing -/

theorem wp_saveActiveState {state : ActiveMemoryState} {Q : List Failure → Disk → Prop}
    (saved : Q [] { d with index := some state })
    (failed : MayFail C → Q [⟨"active_state", .messages, .write⟩] d) :
    wp perform C Q (saveActiveState state) d := by
  rw [saveActiveState, wp_disk_bind]
  intro io choice
  rw [wp_return, perform]
  split_ifs with fails
  · exact failed ⟨d, _, io, choice, fails⟩
  · exact saved

@[simp] theorem Disk.content_extend (d : Disk) (bytes : List UInt8) (mtime : Nat) :
    (d.extend bytes mtime).content = d.content ++ bytes := by
  unfold Disk.extend Disk.content
  cases d.active <;> rfl

@[simp] theorem Disk.archives_extend (d : Disk) (bytes : List UInt8) (mtime : Nat) :
    (d.extend bytes mtime).archives = d.archives := by
  unfold Disk.extend
  cases d.active <;> rfl

@[simp] theorem Disk.active_extend (d : Disk) (bytes : List UInt8) (mtime : Nat) :
    (d.extend bytes mtime).active ≠ none := by
  unfold Disk.extend
  cases d.active <;> exact nofun

theorem Disk.extend_extend (d : Disk) (xs ys : List UInt8) (m n : Nat) :
    (d.extend xs m).extend ys n = d.extend (xs ++ ys) n := by
  unfold Disk.extend
  cases d.active
  · rfl
  · simp

section Replace

variable (d : Disk) (bytes : List UInt8) (mtime : Nat)

end Replace

/-- What an append of `bytes` leaves: the whole text when it went through, a front of it when it
raised.  `V` is what the condition says of the disk behind each write. -/
def Appended (V : Disk → Prop) (C : Disk → DiskOp → Io → Prop) (d : Disk) (bytes : List UInt8)
    (ok : Bool) (d' : Disk) : Prop :=
  V d' ∧ (ok = false → MayFail C) ∧
    ∃ front mtime, front <+: bytes ∧ (ok = true → front = bytes) ∧ d' = d.extend front mtime

variable {V : Disk → Prop} {d : Disk}

/-- An append leaves the text, or a part of it when it raised. -/
theorem wp_appendText
    (visible : ∀ d bytes io, C d (.appendMessages bytes) io →
      V (perform d (.appendMessages bytes) io).2) {fuel : Nat} {bytes : List UInt8}
    (notEmpty : bytes ≠ []) (enough : bytes.length ≤ fuel) :
    wp perform C (Appended V C d bytes) (appendText fuel bytes) d := by
  induction fuel generalizing bytes d with
  | zero =>
    have := List.length_pos_iff.mpr notEmpty
    omega
  | succ fuel ih =>
    obtain ⟨byte, bytes, rfl⟩ := List.exists_cons_of_ne_nil notEmpty
    rw [appendText, wp_disk_bind]
    intro io choice
    have seen := visible d (byte :: bytes) io choice
    rw [perform] at seen ⊢
    split_ifs at seen ⊢ with fails
    · exact ⟨seen, fun _ => ⟨d, _, io, choice, fails⟩, _, io.mtime, List.take_prefix _ _, nofun, rfl⟩
    · rw [List.length_cons] at enough
      by_cases all : (byte :: bytes).drop (io.written + 1) = []
      · have whole : (byte :: bytes).take (io.written + 1) = byte :: bytes := by
          rw [List.drop_eq_nil_iff] at all
          exact List.take_of_length_le all
        simp only [all]
        rw [appendText.eq_2 fuel [] nofun, wp_return]
        exact ⟨seen, nofun, _, io.mtime, List.take_prefix _ _, fun _ => whole, rfl⟩
      · have later := ih (d := d.extend ((byte :: bytes).take (io.written + 1)) io.mtime) all (by
          rw [List.length_drop, List.length_cons]
          omega)
        refine wp_mono ?_ later
        rintro ok d' ⟨kept, raised, front, mtime, isFront, complete, rfl⟩
        refine ⟨kept, raised, (byte :: bytes).take (io.written + 1) ++ front, mtime, ?_, ?_, ?_⟩
        · have joined := (List.prefix_append_right_inj
            ((byte :: bytes).take (io.written + 1))).mpr isFront
          rwa [List.take_append_drop] at joined
        · intro ran
          rw [complete ran, List.take_append_drop]
        · rw [Disk.extend_extend]

theorem Record.bytes_ne_nil (r : Record) : r.bytes ≠ [] := List.length_pos_iff.mp r.bytes_length_pos

theorem wp_appendMessagesRecord
    (visible : ∀ d bytes io, C d (.appendMessages bytes) io →
      V (perform d (.appendMessages bytes) io).2) {r : Record} {Q : List Failure → Disk → Prop}
    (written : ∀ d', Appended V C d r.bytes true d' → Q [] d')
    (failed : ∀ d', Appended V C d r.bytes false d' → Q [⟨"messages", .messages, .write⟩] d') :
    wp perform C Q (appendMessagesRecord r) d := by
  rw [appendMessagesRecord, wp_bind]
  refine wp_mono ?_ (wp_appendText visible r.bytes_ne_nil (Nat.le_refl _))
  intro ok d' appended
  rw [wp_return]
  cases ok with
  | true => exact written d' appended
  | false => exact failed d' appended

theorem wp_writeText_bind {f : DiskOp.writeText.Answer → DiskProgram α}
    (either : ∀ ok : Bool, (ok = false → MayFail C) → wp perform C Q (f ok) d) :
    wp perform C Q (disk .writeText >>= f) d := by
  rw [wp_disk_bind]
  intro io choice
  exact either (!io.fails) fun raised => ⟨d, _, io, choice, by simpa using raised⟩

theorem wp_appendArchive_bind {date : String} {bytes : List UInt8}
    {f : (DiskOp.appendArchive date bytes).Answer → DiskProgram α}
    (written : wp perform C Q (f true) (d.setArchive date (d.archive date ++ bytes)))
    (failed : MayFail C → ∀ archives, wp perform C Q (f false) { d with archives := archives }) :
    wp perform C Q (disk (.appendArchive date bytes) >>= f) d := by
  rw [wp_disk_bind]
  intro io choice
  cases fails : io.fails with
  | true =>
    rw [perform, if_pos fails]
    exact failed ⟨d, _, io, choice, fails⟩ _
  | false =>
    rw [perform, if_neg (by simp [fails])]
    exact written

/-! ### Rotation -/

/-- None of the failures is the record count mismatch. -/
def NoMismatch (failures : List Failure) : Prop :=
  ∀ failure ∈ failures, ∀ state file, failure.error ≠ .recordCountMismatch state file

theorem noMismatch_failureOf (ok : Bool) (target : String) (path : MemoryPath) :
    NoMismatch (failureOf ok target path) := by
  cases ok <;> simp [NoMismatch, failureOf]

theorem NoMismatch.append {fs gs : List Failure} (left : NoMismatch fs) (right : NoMismatch gs) :
    NoMismatch (fs ++ gs) := by
  intro failure mem
  rcases List.mem_append.mp mem with inLeft | inRight
  · exact left failure inLeft
  · exact right failure inRight

variable {rs : List Record}

theorem wp_archiveRecords_frame {a : Ambient} {idsByDate : List (String × List String)} :
    wp perform C (fun failures d' => NoMismatch failures ∧ ∃ archives,
      d' = { d with archives := archives }) (archiveRecords a rs idsByDate) d := by
  induction rs generalizing idsByDate d with
  | nil => exact ⟨by simp [NoMismatch], d.archives, rfl⟩
  | cons r rs ih =>
    have ids : wp perform C (fun _ d' => d' = d) (existingIds a idsByDate (recordDate a r)) d := by
      unfold existingIds
      cases idsByDate.lookup (recordDate a r) with
      | some ids => exact rfl
      | none => exact fun _ _ => rfl
    rw [archiveRecords, wp_bind]
    refine wp_mono ?_ ids
    rintro (e | found) _ rfl
    · exact ⟨by simp [NoMismatch], _, rfl⟩
    · dsimp only
      rcases em (r.key ≠ "" ∧ r.key ∈ found) with skip | skip
      · rw [if_pos skip]
        exact ih
      · rw [if_neg skip]
        refine wp_appendArchive_bind ?_ fun _ archives => ?_
        · rw [if_pos rfl]
          refine wp_writeText_bind fun ok _ => ?_
          cases ok with
          | false => exact ⟨noMismatch_failureOf _ _ _, _, rfl⟩
          | true =>
            rw [if_pos rfl]
            refine wp_mono ?_ ih
            rintro failures d' ⟨none, archives, rfl⟩
            exact ⟨none, archives, rfl⟩
        · exact ⟨noMismatch_failureOf _ _ _, archives, rfl⟩

theorem wp_installActiveRecords
    (visible : ∀ d bytes io, C d (.replaceMessages bytes) io → io.fails = false →
      V (d.replace bytes io.mtime)) {Q : List Failure → Disk → Prop}
    (installed : ∀ mtime, V (d.replace (writeJsonlRecords rs) mtime) →
      Q [] { d.replace (writeJsonlRecords rs) mtime with
        index := some (stateFromRecords rs ((writeJsonlRecords rs).length, mtime)) })
    (failed : MayFail C → ∀ d' failures, failures ≠ [] → NoMismatch failures →
      (d' = d ∨ ∃ mtime, d' = d.replace (writeJsonlRecords rs) mtime ∧ V d') → Q failures d') :
    wp perform C Q (installActiveRecords rs) d := by
  rw [installActiveRecords, rewriteActiveRecords, wp_bind, wp_disk_bind]
  intro io choice
  cases fails : io.fails with
  | true =>
    rw [perform, if_pos fails]
    refine wp_writeText_bind fun ok _ => ?_
    rw [wp_return]
    have nonempty : failureOf false "messages" .messages ++ failureOf ok "memory" .memory ≠ [] :=
      nofun
    rw [if_pos nonempty]
    exact failed ⟨d, _, io, choice, fails⟩ d _ nonempty
      ((noMismatch_failureOf _ _ _).append (noMismatch_failureOf _ _ _)) (.inl rfl)
  | false =>
    have seen := visible d _ io choice fails
    rw [perform, if_neg (by simp [fails])]
    refine wp_writeText_bind fun ok raised => ?_
    rw [wp_return]
    cases ok with
    | false =>
      have nonempty : failureOf true "messages" .messages ++ failureOf false "memory" .memory ≠
          [] := nofun
      rw [if_pos nonempty]
      exact failed (raised rfl) _ _ nonempty
        ((noMismatch_failureOf _ _ _).append (noMismatch_failureOf _ _ _))
        (.inr ⟨io.mtime, rfl, seen⟩)
    | true =>
      rw [if_neg (by simp [failureOf]), wp_bind]
      refine wp_stateFromRecordsNow (wp_saveActiveState (installed io.mtime seen) fun raised => ?_)
      exact failed raised _ _ nofun (noMismatch_failureOf false _ _)
        (.inr ⟨io.mtime, rfl, seen⟩)

/-- What a failed rotation leaves: the archives may have grown, and the active file may be the new
one. -/
def RotationFailed (V : Disk → Prop) (rs : List Record) (d d' : Disk) : Prop :=
  ∃ archives, d' = { d with archives := archives } ∨
    ∃ mtime, d' = { d with archives := archives }.replace (writeJsonlRecords rs) mtime ∧ V d'

/-- `enforce_active_memory_limit` on an index that is the index of the active records.  `A` is what
is known of the archives once all records in front of the boundary were stored, `F` what is known
when the rotation fails. -/
theorem wp_enforceActiveMemoryLimit
    (visible : ∀ d bytes io, C d (.replaceMessages bytes) io → io.fails = false →
      V (d.replace bytes io.mtime)) {a : Ambient} {maxEntries : Nat}
    {Q : Except ReadError (List Failure) → Disk → Prop} {A : List (String × List UInt8) → Prop}
    {F : Prop} {n : Nat} (mayFail : MayFail C → F) (active : d.active ≠ none)
    (read : readJsonlRecords a d.content = .ok rs)
    (boundary : n = archiveEndForCompleteTurns rs.length (userStarts 0 rs) maxEntries)
    (archive : n ≠ 0 → wp perform C (fun failures d' => (failures = [] → A d'.archives) ∧
      (failures ≠ [] → F)) (archiveRecords a (rs.take n) []) d)
    (kept : n = 0 → Q (.ok []) { d with index := some (stateFromRecords rs d.stat) })
    (rotated : n ≠ 0 → ∀ archives mtime, A archives →
      V ({ d with archives := archives }.replace (writeJsonlRecords (rs.drop n)) mtime) →
      Q (.ok []) { { d with archives := archives }.replace (writeJsonlRecords (rs.drop n)) mtime with
        index := some (stateFromRecords (rs.drop n)
          ((writeJsonlRecords (rs.drop n)).length, mtime)) })
    (failed : F → ∀ d' failures, failures ≠ [] → NoMismatch failures →
      RotationFailed V (rs.drop n) d d' → Q (.ok failures) d') :
    wp perform C Q (enforceActiveMemoryLimit a maxEntries (stateFromRecords rs d.stat)) d := by
  rw [enforceActiveMemoryLimit, wp_disk_bind]
  intro io _
  obtain ⟨file, isFile⟩ := Option.ne_none_iff_exists'.mp active
  rw [perform, isFile, Option.map_some]
  dsimp only
  rw [recordCount_stateFromRecords, userStarts_stateFromRecords, ← boundary]
  by_cases fits : rs.length ≤ maxEntries ∨ n = 0
  · have zero : n = 0 := by
      rcases fits with fits | zero
      · have overflow : rs.length - max 1 maxEntries = 0 := by omega
        rw [boundary]
        simp only [archiveEndForCompleteTurns, overflow, if_true]
      · exact zero
    rw [if_pos fits, wp_bind]
    refine wp_saveActiveState (kept zero) fun raised => ?_
    exact failed (mayFail raised) d _ (List.cons_ne_nil _ _) (noMismatch_failureOf false _ _) ⟨d.archives, .inl rfl⟩
  · have nonzero : n ≠ 0 := fun zero => fits (.inr zero)
    rw [if_neg fits, rotate, wp_bind]
    refine wp_readActiveRecords ?_
    rw [read]
    dsimp only
    rw [recordCount_stateFromRecords, if_neg (not_not.mpr rfl), wp_bind]
    refine wp_mono ?_ (wp_and wp_archiveRecords_frame (archive nonzero))
    rintro failures _ ⟨⟨none, archives, rfl⟩, stored, unstored⟩
    by_cases ok : failures = []
    · rw [if_neg (not_not.mpr ok), wp_bind]
      refine wp_installActiveRecords visible (fun mtime seen => ?_)
        fun raised d' failures nonempty none left => ?_
      · exact rotated nonzero archives mtime (stored ok) seen
      · exact failed (mayFail raised) d' failures nonempty none ⟨archives, left⟩
    · rw [if_pos ok]
      exact failed (unstored ok) _ failures ok none ⟨archives, .inl rfl⟩

end AgentPark.Memory
