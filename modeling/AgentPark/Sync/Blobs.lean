import Mathlib.Data.List.Basic
import Mathlib.Logic.Function.Basic

/-!
# Uploading a blob in chunks

A blob is staged in a file that grows chunk by chunk and gets its final name when it is complete.  Any number
of uploaders may send the same blob, and what they send may arrive late, again or not at all.

* `BlobStore.status`, `read` and `write` are the methods of the store, `uploadBlob` is the loop of the job
  that sends one blob.
* `Uploads` is the system: the store, the uploaders and all messages there ever were; `Uploads.step` lets any
  of them arrive.  A write runs under the lock of the blob; a status looks at the two files one after the other.

The digest is a parameter, and chunks carry their bytes as they are behind the decoding.
-/

namespace AgentPark.Sync

abbrev Bytes := List UInt8

def chunkSize : Nat := 256 * 1024

structure Chunk where
  offset : Nat
  total : Nat
  data : Bytes

structure BlobStatus where
  complete : Bool
  offset : Nat
deriving DecidableEq

/-- The file of a blob and the file that becomes it. -/
structure BlobFiles where
  file : Option Bytes := none
  partialFile : Option Bytes := none

abbrev BlobStore := String → BlobFiles

/-- `re.fullmatch(r"[a-f0-9]{64}", sha)`. -/
def isDigest (sha : String) : Bool :=
  sha.length = 64 ∧ sha.toList.all fun c => ('a' ≤ c ∧ c ≤ 'f') ∨ ('0' ≤ c ∧ c ≤ '9')

section
variable (sha256 : Bytes → String)

/-! ### The store -/

/-- What `status` tells of the partial file, when it has found no final one. -/
def BlobFiles.staged (files : BlobFiles) : BlobStatus where
  complete := false
  offset := (files.partialFile.map List.length).getD 0

def BlobFiles.status (files : BlobFiles) (sha : String) : Except String BlobStatus :=
  match files.file with
  | some data =>
    if sha256 data ≠ sha then .error "staged blob checksum mismatch"
    else .ok { complete := true, offset := data.length }
  | none => .ok files.staged

/-- `BlobStore.status` -/
def BlobStore.status (store : BlobStore) (sha : String) : Except String BlobStatus :=
  if !isDigest sha then .error "invalid blob digest" else (store sha).status sha256 sha

/-- `BlobStore.read` -/
def BlobStore.read (store : BlobStore) (sha : String) (offset : Nat) : Except String Chunk :=
  if !isDigest sha then .error "invalid blob digest"
  else
    match (store sha).file with
    | none => .error "no such file"
    | some data =>
      if offset > data.length then .error "invalid chunk offset"
      else .ok { offset, total := data.length, data := (data.drop offset).take chunkSize }

/-- `apply`, inside `write`: it runs under the lock of the blob. -/
def BlobFiles.apply (files : BlobFiles) (sha : String) (chunk : Chunk) : Except String BlobStatus × BlobFiles :=
  match files.status sha256 sha with
  | .error error => (.error error, files)
  | .ok status =>
    if status.complete then
      if status.offset ≠ chunk.total then (.error "blob size mismatch", files) else (.ok status, files)
    else if chunk.offset ≠ status.offset then
      (.error "chunk offset changed; resume from acknowledged offset", files)
    else
      let data := files.partialFile.getD [] ++ chunk.data
      if data.length = chunk.total then
        if sha256 data ≠ sha then
          (.error "blob checksum mismatch; upload discarded", { files with partialFile := none })
        else
          let files : BlobFiles := { file := some data, partialFile := none }
          (files.status sha256 sha, files)
      else
        let files := { files with partialFile := some data }
        (files.status sha256 sha, files)

/-- `BlobStore.write` -/
def BlobStore.write (store : BlobStore) (sha : String) (chunk : Chunk) : Except String BlobStatus × BlobStore :=
  if !isDigest sha then (.error "invalid blob digest", store)
  else if chunk.data.length > chunkSize ∨ chunk.offset + chunk.data.length > chunk.total then
    (.error "invalid chunk size", store)
  else
    let (status, files) := (store sha).apply sha256 sha chunk
    (status, Function.update store sha files)

/-- The loop of `SyncJobs.run` for one blob of a known size, from a status of the target on; `fuel` bounds its
turns. -/
def uploadBlob (source : BlobStore) (sha : String) (size : Nat) : Nat → BlobStatus → BlobStore →
    Except String BlobStatus × BlobStore
  | 0, status, target => (.ok status, target)
  | fuel + 1, status, target =>
    if status.complete then (.ok status, target)
    else
      match source.read sha status.offset with
      | .error error => (.error error, target)
      | .ok chunk =>
        if chunk.total ≠ size then (.error "来源快照大小变化。", target)
        else
          match target.write sha256 sha chunk with
          | (.error error, target) => (.error error, target)
          | (.ok status, target) => uploadBlob source sha size fuel status target

/-! ### The uploaders -/

inductive Request where
  | status
  | write (chunk : Chunk)

/-- The store, what each uploader was told last, and all messages that were ever sent.  `looking` are the
uploaders whose status has found no final file and has not looked at the partial one, `publishing` is the one whose
write holds the lock and has not renamed the full file.  `reports` are the offsets that the store has told for the
blob, in the order in which it did. -/
structure Uploads where
  store : BlobStore
  looking : List Nat := []
  publishing : Option Nat := none
  acknowledged : Nat → Option Nat
  requests : List (Nat × Request)
  responses : List (Nat × BlobStatus)
  reports : List Nat

/-- A message stays where it is when it arrives, so that it may arrive again; one that is lost never does. -/
inductive Event where
  | ask (uploader : Nat)
  | send (uploader length : Nat)
  | arrive (index : Nat)
  | stat (index : Nat)
  | publish
  | answer (index : Nat)
  | restart (uploader : Nat)
  | other (sha : String) (chunk : Chunk)

namespace Uploads

variable (content : Bytes)

/-- The chunk that an uploader of the content sends at an offset. -/
def chunkAt (offset length : Nat) : Chunk :=
  { offset, total := content.length, data := (content.drop offset).take length }

/-- The store answers a request for the blob. -/
def serve (uploads : Uploads) (uploader : Nat) (answer : Except String BlobStatus) (store : BlobStore) :
    Uploads :=
  match answer with
  | .error _ => { uploads with store }
  | .ok status => { uploads with
      store, responses := uploads.responses ++ [(uploader, status)]
      reports := uploads.reports ++ [status.offset] }

/-- Writes for other blobs come from anywhere and may hold anything. -/
def step (uploads : Uploads) : Event → Uploads
  | .ask uploader => { uploads with requests := uploads.requests ++ [(uploader, .status)] }
  | .send uploader length =>
    match uploads.acknowledged uploader with
    | none => uploads
    | some offset => { uploads with
        requests := uploads.requests ++ [(uploader, .write (chunkAt content offset length))] }
  | .arrive index =>
    match uploads.requests[index]? with
    | none => uploads
    | some (uploader, .status) =>
      if isDigest (sha256 content) ∧ (uploads.store (sha256 content)).file = none then
        { uploads with looking := uploads.looking ++ [uploader] }
      else uploads.serve uploader (uploads.store.status sha256 (sha256 content)) uploads.store
    | some (uploader, .write chunk) =>
      -- the lock is taken
      if uploads.publishing.isSome then uploads
      else
        let (answer, store) := uploads.store.write sha256 (sha256 content) chunk
        -- the last chunk is appended before the file gets its final name
        if (uploads.store (sha256 content)).file = none ∧ (store (sha256 content)).file.isSome then
          { uploads with
            store := Function.update uploads.store (sha256 content)
              { partialFile := (store (sha256 content)).file }
            publishing := some uploader }
        else uploads.serve uploader answer store
  | .stat index =>
    match uploads.looking[index]? with
    | none => uploads
    | some uploader =>
      { uploads with looking := uploads.looking.eraseIdx index }.serve uploader
        (.ok (uploads.store (sha256 content)).staged) uploads.store
  | .publish =>
    match uploads.publishing with
    | none => uploads
    | some uploader =>
      let store : BlobStore := Function.update uploads.store (sha256 content)
        { file := (uploads.store (sha256 content)).partialFile }
      { uploads with publishing := none }.serve uploader (store.status sha256 (sha256 content)) store
  | .answer index =>
    match uploads.responses[index]? with
    | none => uploads
    | some (uploader, status) =>
      { uploads with acknowledged := Function.update uploads.acknowledged uploader (some status.offset) }
  | .restart uploader => { uploads with acknowledged := Function.update uploads.acknowledged uploader none }
  | .other sha chunk =>
    if sha = sha256 content then uploads
    else { uploads with store := (uploads.store.write sha256 sha chunk).2 }

def run (uploads : Uploads) (events : List Event) : Uploads := events.foldl (step sha256 content) uploads

/-- A status looks at the partial file when a write has put the final file in its place. -/
def overtaken (uploads : Uploads) : Event → Bool
  | .stat index => uploads.looking[index]?.isSome && (uploads.store (sha256 content)).file.isSome
  | _ => false

/-- No write ends between the two looks of a status. -/
def Undisturbed : Uploads → List Event → Prop
  | _, [] => True
  | uploads, event :: events =>
    overtaken sha256 content uploads event = false ∧ Undisturbed (step sha256 content uploads event) events

/-- Nothing was sent yet; other blobs may be there. -/
def start (others : BlobStore) : Uploads where
  store := Function.update others (sha256 content) {}
  acknowledged := fun _ => none
  requests := []
  responses := []
  reports := []

end Uploads

/-! ### What is kept for a blob -/

/-- The length that the store reports for a blob. -/
def BlobFiles.offset (files : BlobFiles) : Nat :=
  match files.file with
  | some data => data.length
  | none => (files.partialFile.map List.length).getD 0

/-- The files of a blob hold its content, or a beginning of it. -/
structure Kept (content : Bytes) (files : BlobFiles) : Prop where
  partialFile : ∀ data, files.partialFile = some data → data <+: content
  file : ∀ data, files.file = some data → data = content

/-- A chunk of the content, at any offset. -/
structure Honest (content : Bytes) (chunk : Chunk) : Prop where
  total : chunk.total = content.length
  data : chunk.data <+: content.drop chunk.offset

section
variable {sha256} {content : Bytes} {files : BlobFiles} {chunk : Chunk}

theorem honest_chunkAt (content : Bytes) (offset length : Nat) :
    Honest content (Uploads.chunkAt content offset length) :=
  ⟨rfl, List.take_prefix _ _⟩

theorem Kept.status_eq (kept : Kept content files) :
    files.status sha256 (sha256 content) = .ok ⟨files.file.isSome, files.offset⟩ := by
  rw [BlobFiles.status, BlobFiles.offset]
  cases isFile : files.file with
  | none => rfl
  | some data =>
    obtain rfl := kept.file data isFile
    exact if_neg (not_not.mpr rfl)

theorem append_prefix {front back : Bytes} (isFront : front <+: content)
    (isBack : back <+: content.drop front.length) : front ++ back <+: content := by
  obtain ⟨rest, rfl⟩ := isFront
  rw [List.drop_left] at isBack
  exact (List.prefix_append_right_inj front).mpr isBack

theorem Kept.getD_prefix (kept : Kept content files) : files.partialFile.getD [] <+: content := by
  cases isPartial : files.partialFile with
  | none => exact List.nil_prefix
  | some data => exact kept.partialFile data isPartial

theorem offset_of_file_none (isFile : files.file = none) :
    files.offset = (files.partialFile.getD []).length := by
  rw [BlobFiles.offset, isFile]
  cases files.partialFile <;> rfl

theorem Kept.offset_le (kept : Kept content files) : files.offset ≤ content.length := by
  cases isFile : files.file with
  | none =>
    rw [offset_of_file_none isFile]
    exact kept.getD_prefix.length_le
  | some data =>
    have isOffset : files.offset = content.length := by
      rw [BlobFiles.offset, isFile, kept.file data isFile]
    exact Nat.le_of_eq isOffset

/-- What a write leaves behind: the files stay a beginning of the content, a complete file stays, and what is
told is how long they are. -/
structure Applied (sha256 : Bytes → String) (content : Bytes) (files : BlobFiles)
    (result : Except String BlobStatus × BlobFiles) : Prop where
  kept : Kept content result.2
  grows : files.offset ≤ result.2.offset
  finished : files.file.isSome → result.2 = files
  told : ∀ status, result.1 = .ok status → result.2.status sha256 (sha256 content) = .ok status

theorem apply_honest (kept : Kept content files) (honest : Honest content chunk) :
    Applied sha256 content files (files.apply sha256 (sha256 content) chunk) := by
  have refused : ∀ error, Applied sha256 content files (.error error, files) :=
    fun error => ⟨kept, Nat.le_refl _, fun _ => rfl, nofun⟩
  rw [BlobFiles.apply, kept.status_eq]
  dsimp only
  split_ifs with complete size offset all wrong
  · exact refused _
  · exact ⟨kept, Nat.le_refl _, fun _ => rfl, fun status isStatus => kept.status_eq.trans isStatus⟩
  · exact refused _
  all_goals
    have isFile : files.file = none := by simpa using complete
    rw [not_not, offset_of_file_none isFile] at offset
    have whole := append_prefix kept.getD_prefix (offset ▸ honest.data)
  · -- a beginning of this length is the content itself
    exact absurd (congrArg sha256 (whole.eq_of_length (all.trans honest.total))) wrong
  · have isContent := whole.eq_of_length (all.trans honest.total)
    refine ⟨⟨nofun, ?_⟩, ?_, fun isSome => absurd isSome complete, fun status isStatus => isStatus⟩
    · rintro _ ⟨⟩
      exact isContent
    · rw [offset_of_file_none isFile]
      simp [BlobFiles.offset]
  · refine ⟨⟨?_, kept.file⟩, ?_, fun isSome => absurd isSome complete, fun status isStatus => isStatus⟩
    · rintro _ ⟨⟩
      exact whole
    · rw [offset_of_file_none isFile]
      simp [BlobFiles.offset, isFile]

theorem Applied.file_stays {result : Except String BlobStatus × BlobFiles}
    (applied : Applied sha256 content files result) (isFile : files.file = some content) :
    result.2.file = some content := by
  rw [applied.finished (by rw [isFile]; rfl)]
  exact isFile

theorem Applied.told_eq {result : Except String BlobStatus × BlobFiles} {status : BlobStatus}
    (applied : Applied sha256 content files result) (isStatus : result.1 = .ok status) :
    status = ⟨result.2.file.isSome, result.2.offset⟩ :=
  Except.ok.inj ((applied.told status isStatus).symm.trans applied.kept.status_eq)

theorem Applied.told_ge {result : Except String BlobStatus × BlobFiles}
    (applied : Applied sha256 content files result) (status : BlobStatus) (isStatus : result.1 = .ok status) :
    files.offset ≤ status.offset := by
  rw [applied.told_eq isStatus]
  exact applied.grows

theorem Kept.file_eq (kept : Kept content files) (isSome : files.file.isSome) : files.file = some content := by
  obtain ⟨data, isFile⟩ := Option.isSome_iff_exists.mp isSome
  exact isFile.trans (congrArg some (kept.file data isFile))

theorem write_wrongOffset {store : BlobStore} {sha : String} {status : BlobStatus} (chunk : Chunk)
    (told : store.status sha256 sha = .ok status) (wrong : chunk.offset ≠ status.offset) :
    (store.write sha256 sha chunk).2 = store := by
  rw [BlobStore.status] at told
  rw [BlobStore.write]
  split_ifs at told ⊢ with isDigest size
  · rfl
  · have stays : ((store sha).apply sha256 sha chunk).2 = store sha := by
      rw [BlobFiles.apply, told]
      dsimp only
      rw [if_pos wrong]
      split_ifs <;> rfl
    change Function.update store sha ((store sha).apply sha256 sha chunk).2 = store
    rw [stays, Function.update_eq_self]

/-- What one honest write keeps. -/
theorem write_honest {store : BlobStore} (kept : Kept content (store (sha256 content)))
    (honest : Honest content chunk) :
    Applied sha256 content (store (sha256 content)) ((store.write sha256 (sha256 content) chunk).1,
      (store.write sha256 (sha256 content) chunk).2 (sha256 content)) := by
  have refused : ∀ error, Applied sha256 content (store (sha256 content))
      (.error error, store (sha256 content)) :=
    fun error => ⟨kept, Nat.le_refl _, fun _ => rfl, nofun⟩
  rw [BlobStore.write]
  split_ifs with isDigest size
  · exact refused _
  · exact refused _
  · change Applied sha256 content _ (_, Function.update store _ _ _)
    rw [Function.update_self]
    exact apply_honest kept honest

theorem write_other {store : BlobStore} {sha other : String} (apart : sha ≠ other) (chunk : Chunk) :
    (store.write sha256 other chunk).2 sha = store sha := by
  rw [BlobStore.write]
  split_ifs
  · rfl
  · rfl
  · exact Function.update_of_ne apart _ _

end

/-! ### All runs -/

namespace Uploads

/-- What holds at any time. -/
structure Sound (content : Bytes) (uploads : Uploads) : Prop where
  kept : Kept content (uploads.store (sha256 content))
  honest : ∀ uploader chunk, (uploader, .write chunk) ∈ uploads.requests → Honest content chunk
  told : ∀ offset ∈ uploads.reports, offset ≤ (uploads.store (sha256 content)).offset
  finished : ∀ uploader status, (uploader, status) ∈ uploads.responses → status.complete →
    (uploads.store (sha256 content)).file = some content
  locked : uploads.publishing.isSome → (uploads.store (sha256 content)).file = none ∧
    (uploads.store (sha256 content)).partialFile = some content

section
variable {sha256} {content : Bytes} {uploads : Uploads} {files : BlobFiles}

theorem start_sound (others : BlobStore) : Sound sha256 content (start sha256 content others) := by
  have isNew : (start sha256 content others).store (sha256 content) = {} := Function.update_self _ _ _
  refine ⟨?_, nofun, nofun, nofun, nofun⟩
  rw [isNew]
  exact ⟨nofun, nofun⟩

/-- What is answered may tell less than the files hold, and no more. -/
theorem Sound.serve {uploader : Nat} {answer : Except String BlobStatus} {store : BlobStore}
    (sound : Sound sha256 content uploads) (kept : Kept content (store (sha256 content)))
    (grows : (uploads.store (sha256 content)).offset ≤ (store (sha256 content)).offset)
    (stays : (uploads.store (sha256 content)).file = some content →
      (store (sha256 content)).file = some content)
    (unlocked : uploads.publishing = none ∨ store = uploads.store)
    (told : ∀ status, answer = .ok status → status.offset ≤ (store (sha256 content)).offset ∧
      (status.complete → (store (sha256 content)).file = some content)) :
    Sound sha256 content (uploads.serve uploader answer store) := by
  have reported : ∀ offset ∈ uploads.reports, offset ≤ (store (sha256 content)).offset :=
    fun offset mem => Nat.le_trans (sound.told offset mem) grows
  have locked : uploads.publishing.isSome → (store (sha256 content)).file = none ∧
      (store (sha256 content)).partialFile = some content := by
    intro taken
    rcases unlocked with free | same
    · rw [free] at taken
      cases taken
    · rw [same]
      exact sound.locked taken
  cases answer with
  | error error =>
    exact ⟨kept, sound.honest, reported,
      fun uploader status mem complete => stays (sound.finished uploader status mem complete), locked⟩
  | ok status =>
    obtain ⟨fits, isContent⟩ := told status rfl
    refine ⟨kept, sound.honest, ?_, ?_, locked⟩
    · intro offset mem
      rcases List.mem_append.mp mem with old | new
      · exact reported offset old
      · exact List.mem_singleton.mp new ▸ fits
    · intro uploader status mem complete
      rcases List.mem_append.mp mem with old | new
      · exact stays (sound.finished uploader status old complete)
      · cases List.mem_singleton.mp new
        exact isContent complete

theorem Sound.serve_applied {uploader : Nat} {answer : Except String BlobStatus} {store : BlobStore}
    (sound : Sound sha256 content uploads)
    (applied : Applied sha256 content (uploads.store (sha256 content)) (answer, store (sha256 content)))
    (unlocked : uploads.publishing = none ∨ store = uploads.store) :
    Sound sha256 content (uploads.serve uploader answer store) := by
  refine sound.serve applied.kept applied.grows applied.file_stays unlocked fun status isStatus => ?_
  have isTold := applied.told_eq isStatus
  exact ⟨Nat.le_of_eq (congrArg BlobStatus.offset isTold),
    fun complete => applied.kept.file_eq ((congrArg BlobStatus.complete isTold).symm.trans complete)⟩

theorem status_applied {store : BlobStore} (kept : Kept content (store (sha256 content))) :
    Applied sha256 content (store (sha256 content))
      (store.status sha256 (sha256 content), store (sha256 content)) := by
  refine ⟨kept, Nat.le_refl _, fun _ => rfl, fun status isStatus => ?_⟩
  dsimp only at isStatus
  rw [BlobStore.status] at isStatus
  split_ifs at isStatus
  exact isStatus

theorem staged_le (kept : Kept content files) : files.staged.offset ≤ files.offset := by
  cases isFile : files.file with
  | none =>
    rw [BlobFiles.offset, isFile]
    exact Nat.le_refl _
  | some data =>
    rw [BlobFiles.offset, isFile, kept.file data isFile]
    cases isPartial : files.partialFile with
    | none =>
      rw [BlobFiles.staged, isPartial]
      exact Nat.zero_le _
    | some data =>
      rw [BlobFiles.staged, isPartial]
      exact (kept.partialFile data isPartial).length_le

/-- The full file gets its final name. -/
theorem publish_applied {store : BlobStore} (locked : (store (sha256 content)).file = none ∧
    (store (sha256 content)).partialFile = some content) :
    let renamed : BlobStore :=
      Function.update store (sha256 content) { file := (store (sha256 content)).partialFile }
    Applied sha256 content (store (sha256 content))
      (renamed.status sha256 (sha256 content), renamed (sha256 content)) := by
  intro renamed
  obtain ⟨isFile, isPartial⟩ := locked
  have isNew : renamed (sha256 content) = { file := some content } := by
    rw [← isPartial]
    exact Function.update_self _ _ _
  have kept : Kept content (renamed (sha256 content)) := by
    rw [isNew]
    refine ⟨nofun, ?_⟩
    rintro _ ⟨⟩
    rfl
  refine ⟨kept, ?_, fun isSome => ?_, (status_applied kept).told⟩
  · rw [BlobFiles.offset, isFile, isPartial, BlobFiles.offset, isNew]
    exact Nat.le_refl _
  · rw [isFile] at isSome
    cases isSome

theorem append_sound {store : BlobStore} (uploader : Nat) (sound : Sound sha256 content uploads)
    (kept : Kept content (store (sha256 content)))
    (fills : (uploads.store (sha256 content)).file = none ∧ (store (sha256 content)).file.isSome) :
    Sound sha256 content { uploads with
      store := Function.update uploads.store (sha256 content) { partialFile := (store (sha256 content)).file }
      publishing := some uploader } := by
  have isContent := kept.file_eq fills.2
  have within := sound.kept.offset_le
  refine ⟨?_, sound.honest, ?_, ?_, fun _ => ?_⟩
  all_goals
    dsimp only
    rw [Function.update_self, isContent]
  · refine ⟨?_, nofun⟩
    rintro _ ⟨⟩
    exact List.prefix_refl _
  · exact fun offset mem => Nat.le_trans (sound.told offset mem) within
  · intro uploader status mem complete
    have already := sound.finished uploader status mem complete
    rw [fills.1] at already
    cases already
  · exact ⟨rfl, rfl⟩

/-- Every event keeps the files and the answers sound. -/
theorem step_sound (sound : Sound sha256 content uploads) (event : Event) :
    Sound sha256 content (step sha256 content uploads event) := by
  cases event with
  | ask uploader =>
    refine ⟨sound.kept, fun sender chunk mem => ?_, sound.told, sound.finished, sound.locked⟩
    rcases List.mem_append.mp mem with old | new
    · exact sound.honest sender chunk old
    · cases List.mem_singleton.mp new
  | send uploader length =>
    rw [step]
    cases uploads.acknowledged uploader with
    | none => exact sound
    | some offset =>
      refine ⟨sound.kept, fun sender chunk mem => ?_, sound.told, sound.finished, sound.locked⟩
      rcases List.mem_append.mp mem with old | new
      · exact sound.honest sender chunk old
      · cases List.mem_singleton.mp new
        exact honest_chunkAt content offset length
  | arrive index =>
    rw [step]
    cases isRequest : uploads.requests[index]? with
    | none => exact sound
    | some request =>
      obtain ⟨uploader, request⟩ := request
      cases request with
      | status =>
        dsimp only
        split_ifs with looks
        · exact ⟨sound.kept, sound.honest, sound.told, sound.finished, sound.locked⟩
        · exact sound.serve_applied (status_applied sound.kept) (.inr rfl)
      | write chunk =>
        have honest := sound.honest uploader chunk (List.mem_of_getElem? isRequest)
        have applied := @write_honest sha256 content _ _ sound.kept honest
        dsimp only
        split_ifs with taken fills
        · exact sound
        · exact append_sound uploader sound applied.kept fills
        · exact sound.serve_applied applied (.inl (Option.not_isSome_iff_eq_none.mp taken))
  | stat index =>
    rw [step]
    cases uploads.looking[index]? with
    | none => exact sound
    | some uploader =>
      have before : Sound sha256 content { uploads with looking := uploads.looking.eraseIdx index } :=
        ⟨sound.kept, sound.honest, sound.told, sound.finished, sound.locked⟩
      refine before.serve sound.kept (Nat.le_refl _) id (.inr rfl) fun status isStatus => ?_
      cases isStatus
      exact ⟨staged_le sound.kept, nofun⟩
  | publish =>
    rw [step]
    cases taken : uploads.publishing with
    | none => exact sound
    | some uploader =>
      have locked := sound.locked (by rw [taken]; rfl)
      have unlocked : Sound sha256 content { uploads with publishing := none } :=
        ⟨sound.kept, sound.honest, sound.told, sound.finished, nofun⟩
      exact unlocked.serve_applied (publish_applied locked) (.inl rfl)
  | answer index =>
    rw [step]
    cases uploads.responses[index]? with
    | none => exact sound
    | some response => exact ⟨sound.kept, sound.honest, sound.told, sound.finished, sound.locked⟩
  | restart uploader => exact ⟨sound.kept, sound.honest, sound.told, sound.finished, sound.locked⟩
  | other sha chunk =>
    rw [step]
    split_ifs with same
    · exact sound
    · have alone : (uploads.store.write sha256 sha chunk).2 (sha256 content) =
          uploads.store (sha256 content) := write_other (Ne.symm same) chunk
      obtain ⟨kept, honest, told, finished, locked⟩ := sound
      rw [← alone] at kept told finished locked
      exact ⟨kept, honest, told, finished, locked⟩

theorem run_keeps (sound : Sound sha256 content uploads) (events : List Event) :
    Sound sha256 content (run sha256 content uploads events) := by
  induction events generalizing uploads with
  | nil => exact sound
  | cons event events ih => exact ih (step_sound sound event)

/-! ### The reported offsets -/

theorem serve_ordered {uploader : Nat} {answer : Except String BlobStatus} {store : BlobStore}
    (sound : Sound sha256 content uploads) (ordered : uploads.reports.Pairwise (· ≤ ·))
    (told : ∀ status, answer = .ok status → (uploads.store (sha256 content)).offset ≤ status.offset) :
    (uploads.serve uploader answer store).reports.Pairwise (· ≤ ·) := by
  cases answer with
  | error error => exact ordered
  | ok status =>
    refine List.pairwise_append.mpr ⟨ordered, List.pairwise_singleton _ _, fun offset mem last isLast => ?_⟩
    rw [List.mem_singleton.mp isLast]
    exact Nat.le_trans (sound.told offset mem) (told status rfl)

/-- An answer tells no lesser offset, unless it is the second look of a status and the final file has come since the
first. -/
theorem step_ordered (sound : Sound sha256 content uploads) (ordered : uploads.reports.Pairwise (· ≤ ·))
    (event : Event) (calm : overtaken sha256 content uploads event = false) :
    (step sha256 content uploads event).reports.Pairwise (· ≤ ·) := by
  cases event with
  | ask uploader => exact ordered
  | send uploader length =>
    rw [step]
    split
    · exact ordered
    · exact ordered
  | arrive index =>
    rw [step]
    cases isRequest : uploads.requests[index]? with
    | none => exact ordered
    | some request =>
      obtain ⟨uploader, request⟩ := request
      cases request with
      | status =>
        dsimp only
        split_ifs with looks
        · exact ordered
        · exact serve_ordered sound ordered (status_applied sound.kept).told_ge
      | write chunk =>
        have honest := sound.honest uploader chunk (List.mem_of_getElem? isRequest)
        have applied := @write_honest sha256 content _ _ sound.kept honest
        dsimp only
        split_ifs with taken fills
        · exact ordered
        · exact ordered
        · exact serve_ordered sound ordered applied.told_ge
  | stat index =>
    rw [step]
    cases looks : uploads.looking[index]? with
    | none => exact ordered
    | some uploader =>
      have before : Sound sha256 content { uploads with looking := uploads.looking.eraseIdx index } :=
        ⟨sound.kept, sound.honest, sound.told, sound.finished, sound.locked⟩
      refine serve_ordered before ordered fun status isStatus => ?_
      cases isStatus
      have isFile : (uploads.store (sha256 content)).file = none := by
        rw [overtaken, looks] at calm
        simpa using calm
      dsimp only
      rw [BlobFiles.offset, isFile]
      exact Nat.le_refl _
  | publish =>
    rw [step]
    cases taken : uploads.publishing with
    | none => exact ordered
    | some uploader =>
      have locked := sound.locked (by rw [taken]; rfl)
      have unlocked : Sound sha256 content { uploads with publishing := none } :=
        ⟨sound.kept, sound.honest, sound.told, sound.finished, nofun⟩
      exact serve_ordered unlocked ordered (publish_applied locked).told_ge
  | answer index =>
    rw [step]
    split
    · exact ordered
    · exact ordered
  | restart uploader => exact ordered
  | other sha chunk =>
    rw [step]
    split
    · exact ordered
    · exact ordered

theorem run_ordered (sound : Sound sha256 content uploads) (ordered : uploads.reports.Pairwise (· ≤ ·))
    (events : List Event) (calm : Undisturbed sha256 content uploads events) :
    (run sha256 content uploads events).reports.Pairwise (· ≤ ·) := by
  induction events generalizing uploads with
  | nil => exact ordered
  | cons event events ih => exact ih (step_sound sound event) (step_ordered sound ordered event calm.1) calm.2

end

/-- However the messages come, the staged file is a beginning of the content, a chunk at another offset changes
nothing, and what is told to be complete is the content.  The store never tells a lesser offset than before when no
write ends between the two looks of a status. -/
theorem run_sound (content : Bytes) (others : BlobStore) (events : List Event) :
    let first := start sha256 content others
    let uploads := run sha256 content first events
    (∀ data, (uploads.store (sha256 content)).partialFile = some data → data <+: content) ∧
    (Undisturbed sha256 content first events → uploads.reports.Pairwise (· ≤ ·)) ∧
    (∀ chunk status, uploads.store.status sha256 (sha256 content) = .ok status →
      chunk.offset ≠ status.offset → (uploads.store.write sha256 (sha256 content) chunk).2 = uploads.store) ∧
    (∀ status, uploads.store.status sha256 (sha256 content) = .ok status → status.complete →
      (uploads.store (sha256 content)).file = some content) ∧
    ∀ uploader status, (uploader, status) ∈ uploads.responses → status.complete →
      (uploads.store (sha256 content)).file = some content := by
  intro first uploads
  have sound : Sound sha256 content uploads := run_keeps (start_sound others) events
  refine ⟨sound.kept.partialFile, run_ordered (start_sound others) List.Pairwise.nil events,
    fun chunk status told => write_wrongOffset chunk told, fun status told complete => ?_, sound.finished⟩
  have isStatus := (status_applied sound.kept).told_eq told
  exact sound.kept.file_eq ((congrArg BlobStatus.complete isStatus).symm.trans complete)

/-- A digest that tells contents apart and is the one of SHA-256 for three bytes. -/
def sampleDigest (data : Bytes) : String :=
  if data = [1, 2, 3] then "039058c6f2c0cb492c533b0a4d14ef77cc0f78abccced5287d84a1a2011cfb81"
  else String.ofList ('x' :: data.map fun byte => Char.ofNat byte.toNat)

theorem sampleDigest_injective : Function.Injective sampleDigest := by
  have head (data : Bytes) : (sampleDigest data).toList.head? = if data = [1, 2, 3] then some '0' else some 'x' := by
    rw [sampleDigest]
    split_ifs
    · decide +kernel
    · rw [String.toList_ofList]
      rfl
  intro data other same
  have heads := head data
  rw [same, head other] at heads
  by_cases isFirst : data = [1, 2, 3]
  · by_cases isOther : other = [1, 2, 3]
    · exact isFirst.trans isOther.symm
    · rw [if_neg isOther, if_pos isFirst] at heads
      exact absurd heads (by decide)
  · by_cases isOther : other = [1, 2, 3]
    · rw [if_pos isOther, if_neg isFirst] at heads
      exact absurd heads (by decide)
    · rw [sampleDigest, sampleDigest, if_neg isFirst, if_neg isOther] at same
      have lists := congrArg String.toList same
      rw [String.toList_ofList, String.toList_ofList] at lists
      refine List.map_injective_iff.mpr (fun byte other equal => ?_) (List.cons.inj lists).2
      have valid (byte : UInt8) : (Char.ofNat byte.toNat).toNat = byte.toNat := by
        have small : byte.toNat.isValidChar := .inl (Nat.lt_trans byte.toNat_lt (by decide))
        unfold Char.ofNat
        rw [dif_pos small]
        rfl
      have numbers := congrArg Char.toNat equal
      rw [valid, valid] at numbers
      exact UInt8.toNat_inj.mp numbers

/-- Two of three bytes have come, and a second uploader asks before the last one does; the last byte is written
before its status looks at the partial file. -/
def overtakenStatus : List Event :=
  [.ask 0, .arrive 0, .stat 0, .answer 0, .send 0 2, .arrive 1, .answer 1, .send 0 1, .ask 1, .arrive 3, .arrive 2,
    .publish, .stat 0]

/-- The second uploader is told that nothing is there, when the store has told that all is. -/
theorem reports_decrease : ¬ ∀ sha256 : Bytes → String, Function.Injective sha256 → ∀ content others events,
    (run sha256 content (start sha256 content others) events).reports.Pairwise (· ≤ ·) := by
  intro ordered
  have reports : (run sampleDigest [1, 2, 3] (start sampleDigest [1, 2, 3] fun _ => {}) overtakenStatus).reports =
      [0, 2, 3, 0] := by
    decide +kernel
  have sorted := ordered sampleDigest sampleDigest_injective [1, 2, 3] (fun _ => {}) overtakenStatus
  rw [reports] at sorted
  exact absurd sorted (by decide)

/-- When it looks in time, it is told what has come. -/
theorem run_sound_inTime :
    let events := overtakenStatus.take 11 ++ [.stat 0, .publish]
    let uploads := run sampleDigest [1, 2, 3] (start sampleDigest [1, 2, 3] fun _ => {}) events
    uploads.reports = [0, 2, 3, 3] ∧ uploads.reports.Pairwise (· ≤ ·) := by
  refine ⟨by decide +kernel, (run_sound sampleDigest [1, 2, 3] (fun _ => {}) _).2.1 ?_⟩
  exact ⟨rfl, rfl, rfl, rfl, rfl, rfl, rfl, rfl, rfl, rfl, rfl, rfl, rfl, trivial⟩

end Uploads

/-! ### An uploader that nobody disturbs -/

section
variable {sha256} {content : Bytes} {files : BlobFiles}

theorem apply_next (kept : Kept content files) (isFile : files.file = none) :
    ∃ status after, files.apply sha256 (sha256 content) (Uploads.chunkAt content files.offset chunkSize) =
      (.ok status, after) ∧ (status.complete ∨ files.offset < status.offset) := by
  have within := kept.offset_le
  have isOffset := offset_of_file_none isFile
  have unfinished : ¬ files.file.isSome = true := by
    rw [isFile]
    exact Bool.false_ne_true
  generalize isStaged : files.partialFile.getD [] ++ (Uploads.chunkAt content files.offset chunkSize).data = staged
  have whole : staged <+: content := by
    rw [← isStaged]
    exact append_prefix kept.getD_prefix (isOffset ▸ (honest_chunkAt content files.offset chunkSize).data)
  have length : staged.length = files.offset + min chunkSize (content.length - files.offset) := by
    rw [← isStaged, List.length_append, ← isOffset, Uploads.chunkAt, List.length_take, List.length_drop]
  rw [BlobFiles.apply, kept.status_eq]
  dsimp only
  have resumed : ¬ (Uploads.chunkAt content files.offset chunkSize).offset ≠ files.offset := not_not.mpr rfl
  rw [if_neg unfinished, if_neg resumed, isStaged]
  split_ifs with all wrong
  · exact absurd (congrArg sha256 (whole.eq_of_length all)) wrong
  · have after : Kept content { file := some staged, partialFile := none } := by
      refine ⟨nofun, ?_⟩
      rintro _ ⟨⟩
      exact whole.eq_of_length all
    exact ⟨_, _, Prod.ext after.status_eq rfl, .inl rfl⟩
  · have after : Kept content { files with partialFile := some staged } := by
      refine ⟨?_, kept.file⟩
      rintro _ ⟨⟩
      exact whole
    refine ⟨_, _, Prod.ext after.status_eq rfl, .inr ?_⟩
    have isLength : BlobFiles.offset { files with partialFile := some staged } = staged.length := by
      rw [BlobFiles.offset, isFile]
      rfl
    have more : staged.length ≠ content.length := all
    have chunk : 0 < chunkSize := by decide
    rw [isLength]
    dsimp only
    omega

theorem told_complete {store : BlobStore} {status : BlobStatus} (kept : Kept content (store (sha256 content)))
    (told : store.status sha256 (sha256 content) = .ok status) (isComplete : status.complete) :
    status = ⟨true, content.length⟩ ∧ (store (sha256 content)).file = some content := by
  have isStatus := (Uploads.status_applied kept).told_eq told
  have isContent := kept.file_eq ((congrArg BlobStatus.complete isStatus).symm.trans isComplete)
  refine ⟨?_, isContent⟩
  rw [isStatus]
  dsimp only
  rw [BlobFiles.offset, isContent]
  rfl

theorem uploadBlob_complete {source target : BlobStore} {sha : String} {size fuel : Nat} {status : BlobStatus}
    (isComplete : status.complete = true) :
    uploadBlob sha256 source sha size fuel status target = (.ok status, target) := by
  cases fuel with
  | zero => rfl
  | succ fuel => exact if_pos isComplete

theorem write_next {store : BlobStore} {status : BlobStatus} (digest : isDigest (sha256 content) = true)
    (kept : Kept content (store (sha256 content))) (told : store.status sha256 (sha256 content) = .ok status)
    (incomplete : status.complete = false) :
    ∃ next after, store.write sha256 (sha256 content) (Uploads.chunkAt content status.offset chunkSize) =
        (.ok next, after) ∧
      Kept content (after (sha256 content)) ∧ after.status sha256 (sha256 content) = .ok next ∧
      (next.complete ∨ status.offset < next.offset) := by
  have isStatus := (Uploads.status_applied kept).told_eq told
  have isOffset : status.offset = (store (sha256 content)).offset := by rw [isStatus]
  have isFile : (store (sha256 content)).file = none := by
    have noFile : (store (sha256 content)).file.isSome = false :=
      (congrArg BlobStatus.complete isStatus).symm.trans incomplete
    exact Option.not_isSome_iff_eq_none.mp (by rw [noFile]; exact Bool.false_ne_true)
  obtain ⟨next, files, isNext, progress⟩ := @apply_next sha256 content _ kept isFile
  rw [← isOffset] at isNext progress
  have applied := @apply_honest sha256 content _ _ kept (honest_chunkAt content status.offset chunkSize)
  rw [isNext] at applied
  have isFiles : Function.update store (sha256 content) files (sha256 content) = files :=
    Function.update_self _ _ _
  have fits : ¬ ((Uploads.chunkAt content status.offset chunkSize).data.length > chunkSize ∨
      (Uploads.chunkAt content status.offset chunkSize).offset +
        (Uploads.chunkAt content status.offset chunkSize).data.length >
          (Uploads.chunkAt content status.offset chunkSize).total) := by
    have within := kept.offset_le
    rw [Uploads.chunkAt, List.length_take, List.length_drop]
    dsimp only
    omega
  refine ⟨next, Function.update store (sha256 content) files, ?_, ?_, ?_, progress⟩
  · rw [BlobStore.write, digest, Bool.not_true, if_neg Bool.false_ne_true, if_neg fits, isNext]
  · rw [isFiles]
    exact applied.kept
  · rw [BlobStore.status, digest, Bool.not_true, if_neg Bool.false_ne_true, isFiles]
    exact applied.told next rfl

theorem read_staged {source : BlobStore} {sha : String} {offset : Nat} (digest : isDigest sha = true)
    (staged : (source sha).file = some content) (inside : offset ≤ content.length) :
    source.read sha offset = .ok (Uploads.chunkAt content offset chunkSize) := by
  have notBehind : ¬ offset > content.length := Nat.not_lt.mpr inside
  rw [BlobStore.read, digest, Bool.not_true, if_neg Bool.false_ne_true, staged]
  exact if_neg notBehind

theorem uploadBlob_completes {source target : BlobStore} {fuel : Nat} {status : BlobStatus}
    (digest : isDigest (sha256 content) = true) (staged : (source (sha256 content)).file = some content)
    (kept : Kept content (target (sha256 content)))
    (told : target.status sha256 (sha256 content) = .ok status)
    (enough : content.length < status.offset + fuel) :
    ∃ after, uploadBlob sha256 source (sha256 content) content.length fuel status target =
        (.ok { complete := true, offset := content.length }, after) ∧
      (after (sha256 content)).file = some content := by
  have within : status.offset ≤ content.length := by
    rw [(Uploads.status_applied kept).told_eq told]
    exact kept.offset_le
  induction fuel generalizing target status with
  | zero => omega
  | succ fuel ih =>
    cases isComplete : status.complete with
    | true =>
      obtain ⟨isWhole, isContent⟩ := told_complete kept told isComplete
      rw [← isWhole]
      exact ⟨target, uploadBlob_complete isComplete, isContent⟩
    | false =>
      obtain ⟨next, after, isWritten, nextKept, nextTold, progress⟩ :=
        write_next digest kept told isComplete
      have sameSize : ¬ (Uploads.chunkAt content status.offset chunkSize).total ≠ content.length :=
        not_not.mpr rfl
      rw [uploadBlob, isComplete, if_neg Bool.false_ne_true, read_staged digest staged within]
      dsimp only
      rw [if_neg sameSize, isWritten]
      dsimp only
      rcases progress with nextComplete | further
      · obtain ⟨isWhole, isContent⟩ := told_complete nextKept nextTold nextComplete
        rw [← isWhole]
        exact ⟨_, uploadBlob_complete nextComplete, isContent⟩
      · refine ih nextKept nextTold (by omega) ?_
        rw [(Uploads.status_applied nextKept).told_eq nextTold]
        exact nextKept.offset_le

/-- **An upload comes to its end.**  Whatever happened to earlier uploads of the content, its chunks lost, sent
again or out of order, an uploader that asks for the status then and is not disturbed sends what is missing, and the
store has the content. -/
theorem upload_completes (others source : BlobStore) (events : List Event)
    (digest : isDigest (sha256 content) = true) (staged : (source (sha256 content)).file = some content) :
    let store := (Uploads.run sha256 content (Uploads.start sha256 content others) events).store
    ∃ status after, store.status sha256 (sha256 content) = .ok status ∧
      uploadBlob sha256 source (sha256 content) content.length (content.length + 1) status store =
        (.ok { complete := true, offset := content.length }, after) ∧
      (after (sha256 content)).file = some content := by
  intro store
  have kept : Kept content (store (sha256 content)) := (Uploads.run_keeps (Uploads.start_sound others) events).kept
  have told : store.status sha256 (sha256 content) =
      .ok ⟨(store (sha256 content)).file.isSome, (store (sha256 content)).offset⟩ := by
    rw [BlobStore.status, digest, Bool.not_true, if_neg Bool.false_ne_true, kept.status_eq]
  have enough : content.length < (store (sha256 content)).offset + (content.length + 1) := by omega
  obtain ⟨after, completes⟩ := uploadBlob_completes digest staged kept told enough
  exact ⟨_, after, told, completes⟩

/-- Two of three bytes have come when the uploader starts again. -/
theorem upload_completes_resumed :
    let sha := "039058c6f2c0cb492c533b0a4d14ef77cc0f78abccced5287d84a1a2011cfb81"
    let events : List Event := [.ask 0, .arrive 0, .answer 0, .send 0 2, .arrive 1, .restart 0]
    let store := (Uploads.run (fun _ => sha) [1, 2, 3] (Uploads.start (fun _ => sha) [1, 2, 3] fun _ => {}) events).store
    ∃ status after, store.status (fun _ => sha) sha = .ok status ∧
      uploadBlob (fun _ => sha) (fun _ => { file := some [1, 2, 3] }) sha 3 4 status store =
        (.ok { complete := true, offset := 3 }, after) ∧
      (after sha).file = some [1, 2, 3] :=
  upload_completes (fun _ => {}) (fun _ => { file := some [1, 2, 3] }) _ (by decide) rfl

end

end

end AgentPark.Sync
