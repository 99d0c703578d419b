import Mathlib.Data.Finset.Card
import Mathlib.Data.List.MinMax

/-!
# Best-first search

A frontier of nodes, of which the one with the least key is taken next.  Nodes that are not accepted are
replaced by those of their neighbours that have not been queued before.
-/

namespace AgentPark.Lib

variable {α κ : Type*} [DecidableEq α] [LinearOrder κ]

/-- Queue a node that has not been queued before: the frontier, and all that has been queued. -/
def pushNew (state : List α × List α) (node : α) : List α × List α :=
  if node ∈ state.2 then state else (node :: state.1, node :: state.2)

section
variable {state : List α × List α} {nodes : List α} {node : α}

theorem mem_queued_pushNew : node ∈ (nodes.foldl pushNew state).2 ↔ node ∈ state.2 ∨ node ∈ nodes := by
  induction nodes generalizing state with
  | nil => simp
  | cons first nodes ih =>
    rw [List.foldl_cons, ih, pushNew]
    split_ifs with old
    · constructor
      · exact fun either => either.imp_right (List.mem_cons_of_mem first)
      · rintro (queued | new)
        · exact .inl queued
        · rcases List.mem_cons.mp new with rfl | later
          · exact .inl old
          · exact .inr later
    · simp only [List.mem_cons]
      tauto

theorem mem_frontier_pushNew : node ∈ (nodes.foldl pushNew state).1 ↔
    node ∈ state.1 ∨ node ∈ nodes ∧ node ∉ state.2 := by
  induction nodes generalizing state with
  | nil => simp
  | cons first nodes ih =>
    rw [List.foldl_cons, ih, pushNew]
    split_ifs with old
    · refine or_congr_right (and_congr_left fun new => ?_)
      rw [List.mem_cons]
      refine (or_iff_right ?_).symm
      rintro rfl
      exact new old
    · simp only [List.mem_cons, not_or]
      by_cases same : node = first
      · subst same
        simp [old]
      · simp [same]

theorem nodup_pushNew (nodup : state.1.Nodup) (queued : state.1 ⊆ state.2) :
    (nodes.foldl pushNew state).1.Nodup := by
  induction nodes generalizing state with
  | nil => exact nodup
  | cons first nodes ih =>
    rw [List.foldl_cons, pushNew]
    split_ifs with old
    · exact ih nodup queued
    · refine ih (List.nodup_cons.mpr ⟨fun mem => old (queued mem), nodup⟩) ?_
      exact List.cons_subset_cons first queued

end

variable (key : α → κ) (next : α → List α) (ok : α → Bool)

/-- The search; `none` when the bound is reached or the frontier is empty. -/
def bestFirst : Nat → List α → List α → Option α
  | 0, _, _ => none
  | fuel + 1, frontier, queued =>
    match frontier.argmin key with
    | none => none
    | some node =>
      if ok node then some node
      else
        let pushed := (next node).foldl pushNew (frontier.erase node, queued)
        bestFirst fuel pushed.1 pushed.2

/-- What has been queued and is not in the frontier was not accepted, and its neighbours are queued. -/
structure Searching (domain : α → Prop) (start : α) (frontier queued : List α) : Prop where
  nodup : frontier.Nodup
  known : frontier ⊆ queued
  begun : start ∈ queued
  inside : ∀ node ∈ queued, domain node
  rejected : ∀ node ∈ queued, node ∉ frontier → ok node = false ∧ ∀ other ∈ next node, other ∈ queued

/-- Each node of the domain but the start is the neighbour of one with a lesser key that is nearer to the
start; neighbours stay in the domain. -/
structure Descent (domain : α → Prop) (start : α) (steps : α → Nat) : Prop where
  nearer : ∀ node, domain node → node ≠ start →
    ∃ other, domain other ∧ node ∈ next other ∧ key other < key node ∧ steps other < steps node
  inside : ∀ node, domain node → ∀ other ∈ next node, domain other

section
variable {key : α → κ} {next : α → List α} {ok : α → Bool} {domain : α → Prop} {start node : α}
variable {frontier queued : List α} {steps : α → Nat} {fuel : Nat}

omit [DecidableEq α] in
theorem Searching.init (inDomain : domain start) : Searching next ok domain start [start] [start] where
  nodup := List.nodup_singleton start
  known := List.Subset.refl _
  begun := List.mem_singleton_self start
  inside := List.forall_mem_singleton.mpr inDomain
  rejected := fun _ mem notMem => absurd mem notMem

theorem Searching.step (searching : Searching next ok domain start frontier queued)
    (closed : ∀ node, domain node → ∀ other ∈ next node, domain other) (mem : node ∈ frontier)
    (isRejected : ok node = false) :
    Searching next ok domain start ((next node).foldl pushNew (frontier.erase node, queued)).1
      ((next node).foldl pushNew (frontier.erase node, queued)).2 where
  nodup := nodup_pushNew (searching.nodup.erase node)
    (List.Subset.trans (List.erase_subset) searching.known)
  known := by
    intro other isThere
    rw [mem_queued_pushNew]
    rcases mem_frontier_pushNew.mp isThere with old | ⟨new, -⟩
    · exact .inl (searching.known (List.mem_of_mem_erase old))
    · exact .inr new
  begun := mem_queued_pushNew.mpr (.inl searching.begun)
  inside := by
    intro other isThere
    rcases mem_queued_pushNew.mp isThere with old | new
    · exact searching.inside other old
    · exact closed node (searching.inside node (searching.known mem)) other new
  rejected := by
    intro other isThere notThere
    rw [mem_frontier_pushNew, not_or, not_and, not_not] at notThere
    obtain ⟨notErased, wasQueued⟩ := notThere
    by_cases same : other = node
    · rw [same]
      exact ⟨isRejected, fun neighbour isNext => mem_queued_pushNew.mpr (.inr isNext)⟩
    · have old : other ∈ queued := (mem_queued_pushNew.mp isThere).elim id wasQueued
      have notOld : other ∉ frontier := fun inFrontier =>
        notErased ((List.mem_erase_of_ne same).mpr inFrontier)
      obtain ⟨wasRejected, all⟩ := searching.rejected other old notOld
      exact ⟨wasRejected, fun neighbour isNext => mem_queued_pushNew.mpr (.inl (all neighbour isNext))⟩

/-- Below every node that has not been taken there is one in the frontier.  Induction on the distance to
the start. -/
theorem Searching.below (searching : Searching next ok domain start frontier queued)
    (descent : Descent key next domain start steps) (node : α) (inDomain : domain node) :
    (node ∈ queued ∧ node ∉ frontier) ∨ ∃ other ∈ frontier, key other ≤ key node := by
  by_cases inFrontier : node ∈ frontier
  · exact .inr ⟨node, inFrontier, le_rfl⟩
  by_cases wasQueued : node ∈ queued
  · exact .inl ⟨wasQueued, inFrontier⟩
  have ne : node ≠ start := fun same => wasQueued (same ▸ searching.begun)
  obtain ⟨other, isInDomain, isNext, less, nearer⟩ := descent.nearer node inDomain ne
  rcases Searching.below searching descent other isInDomain with ⟨otherQueued, taken⟩ | ⟨below, mem, le⟩
  · exact absurd ((searching.rejected other otherQueued taken).2 node isNext) wasQueued
  · exact .inr ⟨below, mem, le.trans less.le⟩
termination_by steps node

/-- What is found has the least key of all accepted nodes. -/
theorem bestFirst_least (descent : Descent key next domain start steps)
    (searching : Searching next ok domain start frontier queued) {found : α}
    (isFound : bestFirst key next ok fuel frontier queued = some found) :
    ok found = true ∧ domain found ∧ ∀ node, domain node → ok node = true → key found ≤ key node := by
  induction fuel generalizing frontier queued with
  | zero => cases isFound
  | succ fuel ih =>
    rw [bestFirst] at isFound
    split at isFound
    · cases isFound
    · rename_i taken isTaken
      have mem := List.argmin_mem isTaken
      by_cases accepted : ok taken = true
      · rw [if_pos accepted] at isFound
        cases isFound
        refine ⟨accepted, searching.inside _ (searching.known mem), fun node inDomain isOk => ?_⟩
        rcases searching.below descent node inDomain with ⟨wasQueued, notThere⟩ | ⟨below, isThere, le⟩
        · rw [(searching.rejected node wasQueued notThere).1] at isOk
          cases isOk
        · exact (List.le_of_mem_argmin isThere isTaken).trans le
      · rw [if_neg accepted] at isFound
        exact ih (searching.step descent.inside mem (Bool.eq_false_iff.mpr accepted)) isFound

theorem bestFirst_mono {found : α} (isFound : bestFirst key next ok fuel frontier queued = some found)
    (more : Nat) : bestFirst key next ok (fuel + more) frontier queued = some found := by
  induction fuel generalizing frontier queued with
  | zero => cases isFound
  | succ fuel ih =>
    rw [Nat.add_right_comm]
    rw [bestFirst] at isFound ⊢
    split at isFound
    · cases isFound
    · rename_i taken isTaken
      split_ifs at isFound ⊢
      · exact isFound
      · exact ih isFound

theorem bestFirst_finds (descent : Descent key next domain start steps)
    (searching : Searching next ok domain start frontier queued) (rejected : Finset α)
    (isRejected : ∀ node, domain node → ok node = false → node ∈ rejected)
    (exists_ok : ∃ node, domain node ∧ ok node = true)
    (enough : (rejected.filter fun node => node ∉ queued ∨ node ∈ frontier).card < fuel) :
    ∃ found, bestFirst key next ok fuel frontier queued = some found := by
  induction fuel generalizing frontier queued with
  | zero => omega
  | succ fuel ih =>
    rw [bestFirst]
    split
    · rename_i isEmpty
      rw [List.argmin_eq_none] at isEmpty
      obtain ⟨node, inDomain, isOk⟩ := exists_ok
      rcases searching.below descent node inDomain with ⟨wasQueued, notThere⟩ | ⟨below, isThere, -⟩
      · rw [(searching.rejected node wasQueued notThere).1] at isOk
        cases isOk
      · rw [isEmpty] at isThere
        cases isThere
    · rename_i taken isTaken
      have mem := List.argmin_mem isTaken
      by_cases accepted : ok taken = true
      · exact ⟨taken, if_pos accepted⟩
      · rw [if_neg accepted]
        have wasRejected := Bool.eq_false_iff.mpr accepted
        refine ih (searching.step descent.inside mem wasRejected) (lt_of_lt_of_le ?_ (Nat.le_of_lt_succ enough))
        -- the node that was taken does not come back
        have inDomain := searching.inside taken (searching.known mem)
        refine Finset.card_lt_card (Finset.ssubset_iff_of_subset ?_ |>.mpr ⟨taken, ?_, ?_⟩)
        · intro node inNew
          obtain ⟨isRejected, fresh⟩ := Finset.mem_filter.mp inNew
          refine Finset.mem_filter.mpr ⟨isRejected, ?_⟩
          rw [mem_queued_pushNew, mem_frontier_pushNew, not_or] at fresh
          rcases fresh with ⟨notQueued, -⟩ | old | ⟨-, notQueued⟩
          · exact .inl notQueued
          · exact .inr (List.mem_of_mem_erase old)
          · exact .inl notQueued
        · exact Finset.mem_filter.mpr ⟨isRejected taken inDomain wasRejected, .inr mem⟩
        · intro inNew
          rcases (Finset.mem_filter.mp inNew).2 with notQueued | inFrontier
          · exact notQueued (mem_queued_pushNew.mpr (.inl (searching.known mem)))
          · rcases mem_frontier_pushNew.mp inFrontier with old | ⟨-, notQueued⟩
            · exact searching.nodup.not_mem_erase old
            · exact notQueued (searching.known mem)

/-- Something is found when finitely many nodes are not accepted. -/
theorem bestFirst_finds_start (descent : Descent key next domain start steps) (inDomain : domain start)
    (rejected : Finset α) (isRejected : ∀ node, domain node → ok node = false → node ∈ rejected)
    (exists_ok : ∃ node, domain node ∧ ok node = true) :
    ∃ found, bestFirst key next ok (rejected.card + 1) [start] [start] = some found :=
  bestFirst_finds descent (.init inDomain) rejected isRejected exists_ok
    (Nat.lt_succ_of_le (Finset.card_filter_le _ _))

end

end AgentPark.Lib
