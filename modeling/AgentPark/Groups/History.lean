import AgentPark.Groups.Repository
import AgentPark.Lib.Paging

/-!
# Reading the history of a group

The events of a group are read in pages.  A member does not see the messages from one other member to another;
these are left out of a page after its rows have been selected, so that a page can be short or empty.
-/

namespace AgentPark.Groups

open Lib

/-- The reader is a user, or the event is no message to somebody else, or it is from the reader. -/
def Event.readable (actorId : Option String) (event : Event) : Bool :=
  match actorId, event.payload.get "recipient_id" with
  | none, _ => true
  | some _, none => true
  | some actor, some recipient =>
    !recipient.truthy || recipient = .str actor || event.actorId = some actor

/-- An answer of `GroupRepository.events` -/
structure EventPage where
  events : List Event
  cursor : Int
  hasOlder : Bool
deriving DecidableEq

namespace GroupStore

/-- The events of a group. -/
def rows (db : GroupStore) (groupId : String) : List Event :=
  db.events.filter fun event => event.groupId = groupId

def pageRows (db : GroupStore) (groupId : String) (after limit : Int) (latest : Bool) (before : Int) : List Event :=
  if latest ∨ before ≠ 0 then
    (((db.rows groupId).filter fun event => before = 0 ∨ (event.seq : Int) < before).reverse.take
      limit.toNat).reverse
  else ((db.rows groupId).filter fun event => after < (event.seq : Int)).take limit.toNat

/-- `GroupRepository.events` -/
def eventPage (db : GroupStore) (groupId : String) (actorId : Option String) (after limit : Int) (latest : Bool)
    (before : Int) : Except GroupError EventPage :=
  if after < 0 ∨ ¬ (1 ≤ limit ∧ limit ≤ 500) then .error (.value "invalid event pagination")
  else
    match db.read groupId actorId with
    | .error error => .error error
    | .ok _ =>
      let rows := db.pageRows groupId after limit latest before
      let oldest := (rows.head?.map Event.seq).getD 0
      .ok { events := rows.filter (Event.readable actorId)
            cursor := (rows.getLast?.map fun event => (event.seq : Int)).getD after
            hasOlder := oldest ≠ 0 && (db.rows groupId).any fun event => event.seq < oldest }

end GroupStore

section

variable (groupId : String) (actorId : Option String) (limit : Int)

/-- Reading on from the cursor of the answer, until a page leaves it as it is; nothing if the stores do not
suffice. -/
def readForwards : List GroupStore → Int → Option (List Event)
  | [], _ => none
  | db :: later, after =>
    match db.eventPage groupId actorId after limit false 0 with
    | .error _ => none
    | .ok page =>
      if page.cursor = after then some page.events
      else (readForwards later page.cursor).map (page.events ++ ·)

/-- Reading on before the oldest event of the answer, as long as there are older ones.  An answer without events
gives nothing to go on from. -/
def readOlder : EventPage → List GroupStore → Option (List Event)
  | page, [] => if page.hasOlder ∧ page.events ≠ [] then none else some page.events
  | page, db :: later =>
    if page.hasOlder then
      match page.events with
      | [] => some []
      | oldest :: _ =>
        match db.eventPage groupId actorId 0 limit false oldest.seq with
        | .error _ => none
        | .ok older => (readOlder older later).map (· ++ page.events)
    else some page.events

/-- Reading backwards from the latest page. -/
def readBackwards : List GroupStore → Option (List Event)
  | [] => none
  | db :: later =>
    match db.eventPage groupId actorId 0 limit true 0 with
    | .error _ => none
    | .ok page => readOlder groupId actorId limit page later

/-- The stores while the history is read: events are added, and the reader may read. -/
structure Growing (dbs : List GroupStore) : Prop where
  grows : dbs.Pairwise fun db later => db.rows groupId <+: later.rows groupId
  allowed : ∀ db ∈ dbs, ∃ group, db.read groupId actorId = .ok group

variable {groupId actorId limit}

theorem sorted_rows (db : GroupStore) : ((db.rows groupId).map Event.seq).Pairwise (· < ·) :=
  db.eventSeqs.sublist (List.filter_sublist.map Event.seq)

variable {db : GroupStore}

theorem eventPage_eq (allowed : ∃ group, db.read groupId actorId = .ok group)
    (valid : 1 ≤ limit ∧ limit ≤ 500) {after : Int} (nonneg : 0 ≤ after) (latest : Bool)
    (before : Int) :
    db.eventPage groupId actorId after limit latest before =
      .ok { events := (db.pageRows groupId after limit latest before).filter (Event.readable actorId)
            cursor := ((db.pageRows groupId after limit latest before).getLast?.map
              fun event => (event.seq : Int)).getD after
            hasOlder := ((db.pageRows groupId after limit latest before).head?.map Event.seq).getD 0 ≠ 0 &&
              (db.rows groupId).any fun event =>
                event.seq < ((db.pageRows groupId after limit latest before).head?.map Event.seq).getD 0 } := by
  obtain ⟨group, isGroup⟩ := allowed
  have accepted : ¬ (after < 0 ∨ ¬ (1 ≤ limit ∧ limit ≤ 500)) := by omega
  rw [GroupStore.eventPage, if_neg accepted, isGroup]

/-! ### Backwards -/

/-- The page is the last one of the rows `front`. -/
structure PageOf (actorId : Option String) (limit : Int) (front : List Event) (page : EventPage) : Prop where
  events : page.events = (lastPage limit.toNat front).filter (Event.readable actorId)
  hasOlder : page.hasOlder = true ↔ limit.toNat < front.length

variable {front events others : List Event}

theorem hasOlder_iff (isPrefix : front <+: db.rows groupId) (valid : 1 ≤ limit) (oldest : Nat)
    (isOldest : ((lastPage limit.toNat front).head?.map Event.seq).getD 0 = oldest) :
    (decide (oldest ≠ 0) && (db.rows groupId).any fun event => decide (event.seq < oldest)) = true ↔
      limit.toNat < front.length := by
  obtain ⟨back, whole⟩ := isPrefix
  have sorted := @sorted_rows groupId db
  have parts := List.take_append_drop (front.length - limit.toNat) front
  rw [lastPage] at isOldest
  rw [Bool.and_eq_true, decide_eq_true_eq, List.any_eq_true]
  cases page : front.drop (front.length - limit.toNat) with
  | nil =>
    have short := List.drop_eq_nil_iff.mp page
    rw [page] at isOldest
    refine iff_of_false (fun holds => holds.1 isOldest.symm) ?_
    omega
  | cons first rest =>
    rw [page, List.head?_cons, Option.map_some, Option.getD_some] at isOldest
    rw [page] at parts
    rw [← whole, ← parts, List.append_assoc, List.map_append, List.cons_append, List.map_cons,
      List.pairwise_append, List.pairwise_cons] at sorted
    obtain ⟨-, ⟨behind, -⟩, before⟩ := sorted
    rw [isOldest] at behind before
    constructor
    · rintro ⟨-, event, mem, older⟩
      have older := of_decide_eq_true older
      rw [← whole, ← parts, List.append_assoc, List.mem_append, List.cons_append, List.mem_cons] at mem
      rcases mem with inFront | isFirst | inRest
      · have filled := List.length_pos_of_mem inFront
        rw [List.length_take] at filled
        omega
      · rw [isFirst, isOldest] at older
        omega
      · have := behind event.seq (List.mem_map_of_mem inRest)
        omega
    · intro long
      obtain ⟨event, inFront⟩ : ∃ event, event ∈ front.take (front.length - limit.toNat) := by
        refine List.exists_mem_of_length_pos ?_
        rw [List.length_take]
        omega
      have older := before event.seq (List.mem_map_of_mem inFront) oldest List.mem_cons_self
      refine ⟨by omega, event, ?_, decide_eq_true older⟩
      rw [← whole]
      exact List.mem_append_left back (List.mem_of_mem_take inFront)

theorem pageOf_eventPage (allowed : ∃ group, db.read groupId actorId = .ok group)
    (valid : 1 ≤ limit ∧ limit ≤ 500) (isPrefix : front <+: db.rows groupId) {latest : Bool}
    {before : Int} (backwards : latest = true ∨ before ≠ 0)
    (isFront : ((db.rows groupId).filter fun event => before = 0 ∨ (event.seq : Int) < before) = front) :
    ∃ page, db.eventPage groupId actorId 0 limit latest before = .ok page ∧ PageOf actorId limit front page := by
  have rows : db.pageRows groupId 0 limit latest before = lastPage limit.toNat front := by
    rw [GroupStore.pageRows, if_pos backwards, isFront, List.reverse_take, List.reverse_reverse,
      List.length_reverse, lastPage]
  refine ⟨_, eventPage_eq allowed valid le_rfl latest before, ?_, ?_⟩
  · rw [rows]
  · dsimp only
    rw [rows]
    exact hasOlder_iff isPrefix valid.1 _ rfl

theorem filter_before {rows back : List Event} {oldest : Event}
    (sorted : (rows.map Event.seq).Pairwise (· < ·)) (isRows : rows = front ++ oldest :: back)
    (behind : front ≠ []) :
    (oldest.seq : Int) ≠ 0 ∧
      (rows.filter fun event => (oldest.seq : Int) = 0 ∨ (event.seq : Int) < oldest.seq) = front := by
  rw [isRows, List.map_append, List.map_cons, List.pairwise_append, List.pairwise_cons] at sorted
  obtain ⟨-, ⟨later, -⟩, earlier⟩ := sorted
  have before (event : Event) (mem : event ∈ front) : event.seq < oldest.seq :=
    earlier event.seq (List.mem_map_of_mem mem) oldest.seq List.mem_cons_self
  obtain ⟨first, inFront⟩ := List.exists_mem_of_ne_nil front behind
  have pos := before first inFront
  have kept : (front.filter fun event => (oldest.seq : Int) = 0 ∨ (event.seq : Int) < oldest.seq) = front := by
    rw [List.filter_eq_self]
    intro event mem
    have := before event mem
    exact decide_eq_true (by omega)
  have none : ((oldest :: back).filter fun event =>
      (oldest.seq : Int) = 0 ∨ (event.seq : Int) < oldest.seq) = [] := by
    rw [List.filter_eq_nil_iff]
    intro event mem isBefore
    have isBefore := of_decide_eq_true isBefore
    rcases List.mem_cons.mp mem with isOldest | inBack
    · rw [isOldest] at isBefore
      omega
    · have := later event.seq (List.mem_map_of_mem inBack)
      omega
  exact ⟨by omega, by rw [isRows, List.filter_append, kept, none, List.append_nil]⟩

theorem PageOf.readBack {page : EventPage} (isPage : PageOf actorId limit front page)
    (short : ¬ limit.toNat < front.length) :
    ReadBack limit.toNat (Event.readable actorId) front page.events := by
  have whole : lastPage limit.toNat front = front := by
    have none : front.length - limit.toNat = 0 := by omega
    rw [lastPage, none, List.drop_zero]
  rw [isPage.events, whole]
  exact .whole (by omega)

theorem readOlder_spec (valid : 1 ≤ limit ∧ limit ≤ 500) (later : List GroupStore) :
    ∀ {front : List Event} {page : EventPage}, PageOf actorId limit front page →
      (∀ db ∈ later, (∃ group, db.read groupId actorId = .ok group) ∧ front <+: db.rows groupId) →
      front.length ≤ later.length → ∃ read, readOlder groupId actorId limit page later = some read ∧
        ReadBack limit.toNat (Event.readable actorId) front read := by
  induction later with
  | nil =>
    intro front page isPage _ enough
    have short : ¬ limit.toNat < front.length := by
      rw [List.length_nil] at enough
      omega
    rw [readOlder, if_neg fun more => short (isPage.hasOlder.mp more.1)]
    exact ⟨_, rfl, isPage.readBack short⟩
  | cons db later ih =>
    intro front page isPage stores enough
    obtain ⟨⟨allowed, isPrefix⟩, others⟩ := List.forall_mem_cons.mp stores
    rw [readOlder]
    by_cases long : limit.toNat < front.length
    · rw [if_pos (isPage.hasOlder.mpr long)]
      cases shown : page.events with
      | nil =>
        rw [isPage.events] at shown
        exact ⟨[], rfl, .stuck long shown⟩
      | cons oldest newer =>
        have isShown := shown
        rw [isPage.events] at isShown
        obtain ⟨before, tail, isFront, isVisible, within, same⟩ := exists_oldest isShown
        have behind : before ≠ [] := by
          intro none
          rw [isFront, none, List.nil_append, List.length_cons] at long
          omega
        obtain ⟨back, whole⟩ := isPrefix
        have isRows : db.rows groupId = before ++ oldest :: (tail ++ back) := by
          rw [← whole, isFront, List.append_assoc, List.cons_append]
        obtain ⟨notZero, isBefore⟩ := filter_before (sorted_rows db) isRows behind
        obtain ⟨older, answer, isOlder⟩ := pageOf_eventPage allowed valid
          (isRows ▸ List.prefix_append before _) (.inr notZero) isBefore
        have size := congrArg List.length isFront
        rw [List.length_append, List.length_cons] at size
        rw [List.length_cons] at enough
        have nearer : before <+: front := isFront ▸ List.prefix_append before _
        obtain ⟨read, reads, isRead⟩ := ih isOlder
          (fun db mem => ⟨(others db mem).1, nearer.trans (others db mem).2⟩) (by omega)
        dsimp only
        rw [answer]
        dsimp only
        rw [reads, Option.map_some, ← same, isFront]
        exact ⟨_, rfl, .page isVisible within isRead⟩
    · rw [if_neg fun more => long (isPage.hasOlder.mp more)]
      exact ⟨_, rfl, isPage.readBack long⟩

theorem readBackwards_spec (valid : 1 ≤ limit ∧ limit ≤ 500) {later : List GroupStore}
    (growing : Growing groupId actorId (db :: later))
    (enough : (db.rows groupId).length ≤ later.length) :
    ∃ read, readBackwards groupId actorId limit (db :: later) = some read ∧
      ReadBack limit.toNat (Event.readable actorId) (db.rows groupId) read := by
  have all : ((db.rows groupId).filter fun event => (0 : Int) = 0 ∨ (event.seq : Int) < 0) = db.rows groupId := by
    rw [List.filter_eq_self]
    exact fun event _ => decide_eq_true (.inl rfl)
  obtain ⟨page, answer, isPage⟩ :=
    pageOf_eventPage (growing.allowed db List.mem_cons_self) valid (List.prefix_refl _) (.inl rfl) all
  obtain ⟨read, reads, isRead⟩ := readOlder_spec valid later isPage (fun other mem =>
    ⟨growing.allowed other (List.mem_cons_of_mem _ mem), (List.pairwise_cons.mp growing.grows).1 other mem⟩) enough
  refine ⟨read, ?_, isRead⟩
  rw [readBackwards, answer]
  exact reads

/-! ### Forwards -/

/-- The events behind a cursor that the reader sees. -/
def GroupStore.history (db : GroupStore) (groupId : String) (actorId : Option String) (after : Nat) : List Event :=
  (rowsAfter Event.seq after (db.rows groupId)).filter (Event.readable actorId)

theorem eventPage_forwards (allowed : ∃ group, db.read groupId actorId = .ok group)
    (valid : 1 ≤ limit ∧ limit ≤ 500) (after : Nat) :
    ∃ page, db.eventPage groupId actorId after limit false 0 = .ok page ∧
      ((page.events = [] ∧ page.cursor = after ∧ rowsAfter Event.seq after (db.rows groupId) = []) ∨
        ∃ rows last, page.events = (rows ++ [last]).filter (Event.readable actorId) ∧
          page.cursor = last.seq ∧ after < last.seq ∧
          rows ++ [last] <+: rowsAfter Event.seq after (db.rows groupId)) := by
  have isPage : db.pageRows groupId after limit false 0 =
      (rowsAfter Event.seq after (db.rows groupId)).take limit.toNat := by
    have notBackwards : ¬ ((false : Bool) = true ∨ (0 : Int) ≠ 0) := by simp
    have same : (fun event : Event => decide ((after : Int) < event.seq)) =
        fun event => decide (after < event.seq) := by
      funext event
      exact decide_eq_decide.mpr Int.ofNat_lt
    rw [GroupStore.pageRows, if_neg notBackwards, same, rowsAfter]
  refine ⟨_, eventPage_eq allowed valid (Int.natCast_nonneg after) false 0, ?_⟩
  dsimp only
  rw [isPage]
  rcases List.eq_nil_or_concat ((rowsAfter Event.seq after (db.rows groupId)).take limit.toNat) with
    none | ⟨rows, last, same⟩
  · refine .inl ⟨by rw [none]; rfl, by rw [none]; rfl, ?_⟩
    rw [List.take_eq_nil_iff] at none
    exact none.resolve_left (by omega)
  · rw [List.concat_eq_append] at same
    have isPrefix : rows ++ [last] <+: rowsAfter Event.seq after (db.rows groupId) := same ▸ List.take_prefix ..
    have mem : last ∈ rowsAfter Event.seq after (db.rows groupId) := isPrefix.subset (by simp)
    refine .inr ⟨rows, last, by rw [same], ?_, of_decide_eq_true (List.mem_filter.mp mem).2, isPrefix⟩
    rw [same, List.getLast?_concat]
    rfl

theorem rowsAfter_grows {last : GroupStore} (grows : db.rows groupId <+: last.rows groupId)
    (after : Nat) :
    rowsAfter Event.seq after (db.rows groupId) <+: rowsAfter Event.seq after (last.rows groupId) := by
  obtain ⟨more, whole⟩ := grows
  rw [← whole, rowsAfter_append]
  exact List.prefix_append ..

theorem Growing.tail {later : List GroupStore} (growing : Growing groupId actorId (db :: later)) :
    Growing groupId actorId later :=
  ⟨(List.pairwise_cons.mp growing.grows).2, fun db mem => growing.allowed db (List.mem_cons_of_mem _ mem)⟩

theorem readForwards_eq (valid : 1 ≤ limit ∧ limit ≤ 500) {dbs : List GroupStore} :
    Growing groupId actorId dbs → ∀ {after : Nat}, readForwards groupId actorId limit dbs after = some events →
      ∃ last ∈ dbs, events = last.history groupId actorId after := by
  induction dbs generalizing events with
  | nil => exact fun _ _ reads => (nomatch reads)
  | cons db later ih =>
    intro growing after reads
    obtain ⟨page, answer, cases⟩ := eventPage_forwards (growing.allowed db List.mem_cons_self) valid after
    rw [readForwards, answer] at reads
    dsimp only at reads
    rcases cases with ⟨none, cursor, ended⟩ | ⟨rows, last, isEvents, cursor, further, isPrefix⟩
    · rw [if_pos cursor, none, Option.some.injEq] at reads
      refine ⟨db, List.mem_cons_self, ?_⟩
      rw [← reads, GroupStore.history, ended]
      rfl
    · rw [cursor, if_neg (by omega), Option.map_eq_some_iff] at reads
      obtain ⟨others, rest, rfl⟩ := reads
      obtain ⟨final, mem, same⟩ := ih growing.tail rest
      have grows := (List.pairwise_cons.mp growing.grows).1 final mem
      have pages := take_append_rowsAfter (sorted_rows final) (isPrefix.trans (rowsAfter_grows grows after))
      refine ⟨final, List.mem_cons_of_mem _ mem, ?_⟩
      rw [same, isEvents, GroupStore.history, GroupStore.history, pages, List.filter_append (rows ++ [last])]

theorem readForwards_isSome (valid : 1 ≤ limit ∧ limit ≤ 500) {dbs : List GroupStore} :
    Growing groupId actorId dbs → dbs ≠ [] → ∀ {after : Nat},
      (∀ db ∈ dbs, (rowsAfter Event.seq after (db.rows groupId)).length < dbs.length) →
        ∃ events, readForwards groupId actorId limit dbs after = some events := by
  induction dbs with
  | nil => exact fun _ none => absurd rfl none
  | cons db later ih =>
    intro growing _ after enough
    obtain ⟨page, answer, cases⟩ := eventPage_forwards (growing.allowed db List.mem_cons_self) valid after
    rw [readForwards, answer]
    dsimp only
    rcases cases with ⟨none, cursor, ended⟩ | ⟨rows, last, isEvents, cursor, further, isPrefix⟩
    · rw [if_pos cursor]
      exact ⟨_, rfl⟩
    · rw [cursor, if_neg (by omega)]
      have filled := isPrefix.length_le
      have size := enough db List.mem_cons_self
      rw [List.length_append, List.length_singleton] at filled
      rw [List.length_cons] at size
      obtain ⟨events, reads⟩ := @ih growing.tail (List.ne_nil_of_length_pos (by omega)) last.seq fun final mem => by
        have grows := (List.pairwise_cons.mp growing.grows).1 final mem
        have pages := take_append_rowsAfter (sorted_rows final) (isPrefix.trans (rowsAfter_grows grows after))
        have whole := enough final (List.mem_cons_of_mem _ mem)
        rw [pages, List.length_append, List.length_append, List.length_singleton, List.length_cons] at whole
        omega
      rw [reads]
      exact ⟨_, rfl⟩

/-! ### What the reader does not see -/

/-- Two events that are the same, or of which the reader sees neither. -/
structure AlikeFor (actorId : Option String) (event other : Event) : Prop where
  seq : event.seq = other.seq
  groupId : event.groupId = other.groupId
  seen : event = other ∨ event.readable actorId = false ∧ other.readable actorId = false

theorem filter_readable_congr (alike : List.Forall₂ (AlikeFor actorId) events others) :
    events.filter (Event.readable actorId) = others.filter (Event.readable actorId) := by
  induction alike with
  | nil => rfl
  | cons here later ih =>
    rcases here.seen with same | ⟨hidden, hidden'⟩
    · rw [same, List.filter_cons, List.filter_cons, ih]
    · rw [List.filter_cons_of_neg (by rw [hidden]; exact Bool.false_ne_true),
        List.filter_cons_of_neg (by rw [hidden']; exact Bool.false_ne_true), ih]

theorem filter_congr_alike (alike : List.Forall₂ (AlikeFor actorId) events others)
    {p : Event → Bool} (looks : ∀ event other, AlikeFor actorId event other → p event = p other) :
    List.Forall₂ (AlikeFor actorId) (events.filter p) (others.filter p) := by
  induction alike with
  | nil => exact .nil
  | @cons event other _ _ here later ih =>
    rw [List.filter_cons, List.filter_cons, looks event other here]
    split
    · exact .cons here ih
    · exact ih

theorem map_seq_alike (alike : List.Forall₂ (AlikeFor actorId) events others) :
    events.map Event.seq = others.map Event.seq := by
  induction alike with
  | nil => rfl
  | cons here _ ih => rw [List.map_cons, List.map_cons, ih, here.seq]

/-- **A page does not depend on what the reader does not see.** -/
theorem eventPage_congr {other : GroupStore} (groups : db.groups = other.groups)
    (alike : List.Forall₂ (AlikeFor actorId) db.events other.events) (after : Int) (latest : Bool)
    (before : Int) :
    db.eventPage groupId actorId after limit latest before =
      other.eventPage groupId actorId after limit latest before := by
  have rows : List.Forall₂ (AlikeFor actorId) (db.rows groupId) (other.rows groupId) :=
    filter_congr_alike alike fun _ _ here => by rw [here.groupId]
  have page : List.Forall₂ (AlikeFor actorId) (db.pageRows groupId after limit latest before)
      (other.pageRows groupId after limit latest before) := by
    rw [GroupStore.pageRows, GroupStore.pageRows]
    split
    · refine List.rel_reverse (List.forall₂_take _ (List.rel_reverse (filter_congr_alike rows ?_)))
      exact fun _ _ here => by rw [here.seq]
    · exact List.forall₂_take _ (filter_congr_alike rows fun _ _ here => by rw [here.seq])
  have read : db.read groupId actorId = other.read groupId actorId := by
    rw [GroupStore.read, GroupStore.read, groups]
  have first (events : List Event) : events.head?.map Event.seq = (events.map Event.seq).head? :=
    List.head?_map.symm
  have last (events : List Event) : (events.getLast?.map fun event => (event.seq : Int)) =
      (events.map Event.seq).getLast?.map fun seq : Nat => (seq : Int) := by
    rw [List.getLast?_map, Option.map_map]
    rfl
  have older (events : List Event) (oldest : Nat) : (events.any fun event => decide (event.seq < oldest)) =
      (events.map Event.seq).any fun seq => decide (seq < oldest) := by
    rw [List.any_map]
    rfl
  rw [GroupStore.eventPage, GroupStore.eventPage, read]
  dsimp only
  rw [first, first, last, last, older, older, map_seq_alike page, map_seq_alike rows, filter_readable_congr page]

end

/-- **The history in pages.**  Forwards every event the reader sees is read once, in order, however the group grows,
and the reading ends when there are more pages than events.  Backwards it is so exactly when no event that the
reader sees stands before a page of events that it does not see.  And no page depends on these. -/
theorem history_pages (groupId : String) (actorId : Option String) (limit : Int) (valid : 1 ≤ limit ∧ limit ≤ 500) :
    (∀ db later, Growing groupId actorId (db :: later) → ∀ (after : Nat) events,
      readForwards groupId actorId limit (db :: later) after = some events →
        db.history groupId actorId after <+: events ∧ (events.map Event.seq).Pairwise (· < ·)) ∧
    (∀ db later, Growing groupId actorId (db :: later) → ∀ after : Nat,
      (∀ last ∈ db :: later, (rowsAfter Event.seq after (last.rows groupId)).length ≤ later.length) →
        ∃ events, readForwards groupId actorId limit (db :: later) after = some events) ∧
    (∀ db later, Growing groupId actorId (db :: later) → (db.rows groupId).length ≤ later.length →
      ∃ events, readBackwards groupId actorId limit (db :: later) = some events ∧
        (events = (db.rows groupId).filter (Event.readable actorId) ↔
          ShortGaps limit.toNat (Event.readable actorId) (db.rows groupId))) ∧
    ∀ db other : GroupStore, db.groups = other.groups → List.Forall₂ (AlikeFor actorId) db.events other.events →
      ∀ after latest before, db.eventPage groupId actorId after limit latest before =
        other.eventPage groupId actorId after limit latest before := by
  refine ⟨fun db later growing after events reads => ?_, fun db later growing after enough => ?_,
    fun db later growing enough => ?_, fun db other groups alike => eventPage_congr groups alike⟩
  · obtain ⟨last, mem, same⟩ := readForwards_eq valid growing reads
    have grows : db.rows groupId <+: last.rows groupId := by
      rcases List.mem_cons.mp mem with isFirst | isLater
      · subst isFirst
        exact List.prefix_refl _
      · exact (List.pairwise_cons.mp growing.grows).1 last isLater
    rw [same]
    exact ⟨(rowsAfter_grows grows after).filter _,
      (sorted_rows last).sublist ((List.filter_sublist.trans List.filter_sublist).map Event.seq)⟩
  · exact readForwards_isSome valid growing (List.cons_ne_nil _ _) fun last mem =>
      Nat.lt_succ_of_le (enough last mem)
  · obtain ⟨events, reads, isRead⟩ := readBackwards_spec valid growing enough
    exact ⟨events, reads, isRead.eq_filter_iff⟩

/-- A group of three members. -/
def threeMembers : AgentGroup where
  id := "g"
  name := "g"
  bounds := { x := 0, y := 0, width := 1, height := 1, width_pos := unit_pos, height_pos := unit_pos }
  members := [{ nodeId := "a" }, { nodeId := "b" }, { nodeId := "c" }]
  createdAt := ""
  updatedAt := ""

/-- A message to all, and one from `b` to `c`. -/
def whispered : GroupStore where
  groups := [threeMembers]
  events :=
    [⟨1, "g", .message, some "b", .obj [("text", .str "to all")], ""⟩,
      ⟨2, "g", .message, some "b", .obj [("text", .str "to c"), ("recipient_id", .str "c")], ""⟩]
  nextSeq := 3
  groupIds := by decide
  memberIds := GroupStore.empty.memberIds
  eventSeqs := by decide
  assigned := by decide
  recipients := GroupStore.empty.recipients
  requestKeys := GroupStore.empty.requestKeys

theorem growing_whispered : Growing "g" (some "a") [whispered, whispered, whispered] where
  grows := by
    refine List.pairwise_of_forall_mem_list fun db mem later mem' => ?_
    simp only [List.mem_cons, List.not_mem_nil, or_false, or_self] at mem mem'
    subst mem mem'
    exact List.prefix_refl _
  allowed db mem := by
    simp only [List.mem_cons, List.not_mem_nil, or_false, or_self] at mem
    rw [mem]
    exact ⟨threeMembers, by decide⟩

/-- Member `a` reads forwards what there was for it at the start. -/
theorem history_whispered :
    ∃ events, readForwards "g" (some "a") 1 [whispered, whispered, whispered] (0 : Nat) = some events ∧
      whispered.history "g" (some "a") 0 <+: events := by
  have pages := history_pages "g" (some "a") 1 ⟨le_rfl, by omega⟩
  obtain ⟨events, reads⟩ := pages.2.1 whispered [whispered, whispered] growing_whispered 0 fun last mem => by
    simp only [List.mem_cons, List.not_mem_nil, or_false, or_self] at mem
    rw [mem]
    decide
  exact ⟨events, reads, (pages.1 whispered [whispered, whispered] growing_whispered 0 events reads).1⟩

/-- Member `a` reads backwards: the latest page is empty, and the message to all is not reached. -/
theorem whispered_not_reached :
    readBackwards "g" (some "a") 1 [whispered, whispered, whispered] = some [] ∧
      (whispered.rows "g").filter (Event.readable (some "a")) ≠ [] := by
  decide

end AgentPark.Groups
