import Mathlib.Data.List.Basic

/-!
# Reading a log in pages

A log is read in pages of a number of rows, and a page shows the rows that are visible to the reader.
-/

namespace AgentPark.Lib

variable {α : Type*}

/-! ### Forwards -/

section

variable (key : α → Nat)

/-- The rows behind a key. -/
def rowsAfter (after : Nat) (rows : List α) : List α := rows.filter fun row => after < key row

variable {key}

theorem rowsAfter_append (after : Nat) (rows more : List α) :
    rowsAfter key after (rows ++ more) = rowsAfter key after rows ++ rowsAfter key after more :=
  List.filter_append ..

/-- The next page starts behind the last row of the one before, shown or not. -/
theorem take_append_rowsAfter {after : Nat} {rows page : List α} {last : α}
    (sorted : (rows.map key).Pairwise (· < ·)) (isPage : page ++ [last] <+: rowsAfter key after rows) :
    rowsAfter key after rows = page ++ [last] ++ rowsAfter key (key last) rows := by
  obtain ⟨rest, whole⟩ := isPage
  have sortedAfter : ((page ++ [last] ++ rest).map key).Pairwise (· < ·) := by
    rw [whole]
    exact sorted.sublist (List.filter_sublist.map key)
  rw [List.map_append, List.map_append, List.map_singleton, List.pairwise_append, List.pairwise_append] at sortedAfter
  obtain ⟨⟨-, -, before⟩, -, behind⟩ := sortedAfter
  have lastAfter : after < key last := by
    have mem : last ∈ rowsAfter key after rows := by
      rw [← whole]
      simp
    exact of_decide_eq_true (List.mem_filter.mp mem).2
  have again : rowsAfter key (key last) rows = rowsAfter key (key last) (rowsAfter key after rows) := by
    rw [rowsAfter, rowsAfter, rowsAfter, List.filter_filter]
    refine List.filter_congr fun row _ => ?_
    by_cases later : key last < key row
    · simp [later, Nat.lt_trans lastAfter later]
    · simp [later]
  have none : rowsAfter key (key last) (page ++ [last]) = [] := by
    rw [rowsAfter, List.filter_eq_nil_iff]
    intro row mem later
    have later := of_decide_eq_true later
    rcases List.mem_append.mp mem with inPage | isLast
    · have := before (key row) (List.mem_map_of_mem inPage) (key last) (List.mem_singleton_self _)
      omega
    · rw [List.mem_singleton.mp isLast] at later
      omega
  have all : rowsAfter key (key last) rest = rest := by
    rw [rowsAfter, List.filter_eq_self]
    intro row mem
    exact decide_eq_true (behind (key last) (by simp) (key row) (List.mem_map_of_mem mem))
  rw [again, ← whole, rowsAfter_append, none, all, List.nil_append]

end

/-! ### Backwards -/

section

variable (limit : Nat) (visible : α → Bool)

/-- The last rows of a log. -/
def lastPage (rows : List α) : List α := rows.drop (rows.length - limit)

/-- No visible row stands before as many rows that are not visible as a page has. -/
def ShortGaps (rows : List α) : Prop :=
  ∀ front gap back, rows = front ++ gap ++ back → (∀ row ∈ gap, visible row = false) → limit ≤ gap.length →
    ∀ row ∈ front, visible row = false

/-- What is read of a log from its last page on.  A page that shows no row, although there are older ones, gives
nothing to go on from. -/
inductive ReadBack : List α → List α → Prop
  | whole {rows : List α} (short : rows.length ≤ limit) : ReadBack rows (rows.filter visible)
  | stuck {rows : List α} (long : limit < rows.length) (none : (lastPage limit rows).filter visible = []) :
    ReadBack rows []
  | page {front tail read : List α} {oldest : α} (shown : visible oldest = true) (within : tail.length < limit)
    (later : ReadBack front read) : ReadBack (front ++ oldest :: tail) (read ++ oldest :: tail.filter visible)

variable {limit visible}

theorem exists_oldest {rows shown : List α} {oldest : α}
    (isShown : (lastPage limit rows).filter visible = oldest :: shown) :
    ∃ front tail, rows = front ++ oldest :: tail ∧ visible oldest = true ∧ tail.length < limit ∧
      tail.filter visible = shown := by
  obtain ⟨hidden, tail, isPage, -, isVisible, same⟩ := List.filter_eq_cons_iff.mp isShown
  have whole := List.take_append_drop (rows.length - limit) rows
  have length := congrArg List.length isPage
  rw [lastPage] at isPage length
  rw [isPage, ← List.append_assoc] at whole
  rw [List.length_drop, List.length_append, List.length_cons] at length
  exact ⟨_, tail, whole.symm, isVisible, by omega, same⟩

theorem shortGaps_append {front tail : List α} {oldest : α} (shown : visible oldest = true)
    (within : tail.length < limit) :
    ShortGaps limit visible (front ++ oldest :: tail) ↔ ShortGaps limit visible front := by
  constructor
  · intro short before gap back isFront
    refine short before gap (back ++ oldest :: tail) ?_
    rw [isFront, List.append_assoc]
  · intro short before gap back isRows hidden long
    rcases List.append_eq_append_iff.mp isRows with ⟨rest, isFront, isTail⟩ | ⟨rest, isFront, -⟩
    · cases rest with
      | nil =>
        rw [List.append_nil] at isFront
        exact short before gap [] (by rw [List.append_nil, isFront]) hidden long
      | cons first rest =>
        -- the gap would have to reach beyond the visible row, and there is no room behind it
        obtain ⟨rfl, isTail⟩ := List.cons.inj isTail
        have room := congrArg List.length isTail
        rw [List.length_append] at room
        have notGap (mem : oldest ∈ gap) : False := by
          rw [hidden oldest mem] at shown
          cases shown
        rcases List.append_eq_append_iff.mp isFront with ⟨other, -, isGap⟩ | ⟨other, -, isRest⟩
        · exact (notGap (isGap ▸ List.mem_append_right other List.mem_cons_self)).elim
        · cases other with
          | nil =>
            rw [List.nil_append] at isRest
            exact (notGap (isRest ▸ List.mem_cons_self)).elim
          | cons _ other =>
            have size := congrArg List.length isRest
            rw [List.cons_append, List.length_cons, List.length_cons, List.length_append] at size
            rw [List.length_cons, List.length_cons] at room
            omega
    · exact short before gap rest isFront hidden long

/-- **Reading backwards reaches all visible rows** exactly when there are no gaps of a page before one. -/
theorem ReadBack.eq_filter_iff {rows read : List α} (reads : ReadBack limit visible rows read) :
    read = rows.filter visible ↔ ShortGaps limit visible rows := by
  induction reads with
  | whole short =>
    refine iff_of_true rfl fun front gap back isRows _ long row mem => ?_
    have length := congrArg List.length isRows
    have filled := List.length_pos_of_mem mem
    rw [List.length_append, List.length_append] at length
    omega
  | @stuck rows long none =>
    have page : (lastPage limit rows).length = limit := by
      rw [lastPage, List.length_drop]
      omega
    have hidden := List.filter_eq_nil_iff.mp none
    have whole := List.take_append_drop (rows.length - limit) rows
    constructor
    · intro nothing front gap back isRows _ _ row mem
      have inRows : row ∈ rows := isRows ▸ List.mem_append_left back (List.mem_append_left gap mem)
      exact Bool.eq_false_iff.mpr (List.filter_eq_nil_iff.mp nothing.symm row inRows)
    · intro short
      have older := short (rows.take (rows.length - limit)) (lastPage limit rows) []
        (by rw [List.append_nil, lastPage, whole]) (fun row mem => Bool.eq_false_iff.mpr (hidden row mem))
        (Nat.le_of_eq page.symm)
      refine (List.filter_eq_nil_iff.mpr fun row mem => ?_).symm
      rw [← whole] at mem
      rcases List.mem_append.mp mem with first | last
      · rw [older row first]
        exact Bool.false_ne_true
      · exact hidden row last
  | page shown within later ih =>
    rw [shortGaps_append shown within, ← ih, List.filter_append, List.filter_cons_of_pos shown]
    exact List.append_left_inj _

end

end AgentPark.Lib
